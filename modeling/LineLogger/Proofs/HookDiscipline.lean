import LineLogger.Proofs.Chain
import LineLogger.Proofs.Hooks
import Mathlib

namespace LineLogger.State

variable {c : Command} {q : Call} {w u : State} {a : Landing} {l : LoggerId} {e : IoError}
  {free depth : Nat} {held : List LoggerId}

/-- The line of a call gets to an outlet that fails, and `l` is the logger of that outlet. -/
def LosesCall (w : State) (q : Call) (l : LoggerId) (e : IoError) : Prop :=
  w.admits q = true ∧ ∃ vs o, w.Chained q.logger vs o ∧ (∀ v ∈ vs, w.lets v = true) ∧
    (loggersOf q.logger vs).getLast? = some l ∧ (w.deliver o (w.chainLine q vs)).2 = some e

def Loses (w : State) (c : Command) (l : LoggerId) (e : IoError) : Prop :=
  ∃ q, c.call? = some q ∧ w.LosesCall q l e

theorem fate_eq_lost {f : Option IoError} : Fate.ofFailure f = .lost e ↔ f = some e := by
  cases f <;> simp [Fate.ofFailure]

theorem getLast?_path (a : Landing) : a.path.getLast? = some a.logger := by
  simp [Landing.path]

theorem losesCall_iff (h : w.descend free held q = some a) :
    w.LosesCall q l e ↔ a.fate = .lost e ∧ a.logger = l := by
  constructor
  · rintro ⟨ha, vs, o, hc, hv, hl, he⟩
    have hd := lands_of_descend hc ha hv h
    refine ⟨hd.fate.trans (fate_eq_lost.mpr he), ?_⟩
    rw [← hd.path, getLast?_path] at hl
    exact Option.some.inj hl
  · rintro ⟨hf, rfl⟩
    obtain ⟨ha, vs, o, hc, hv⟩ := chain_of_descend h (hf ▸ Fate.noConfusion)
    have hd := lands_of_descend hc ha hv h
    refine ⟨ha, vs, o, hc, hv, ?_, fate_eq_lost.mp (hd.fate.symm.trans hf)⟩
    rw [← hd.path, getLast?_path]

theorem tally_of_loses (hw : w.inHook = true) {r : Reply}
    (h : w.exec (onFailure depth) held c = some (u, r)) (hl : w.Loses c l e) (k : LoggerId) :
    u.tally k .writeFailure = w.tally k .writeFailure + if k = l then 1 else 0 := by
  obtain ⟨q, hq, hl⟩ := hl
  obtain ⟨a, ha, hs⟩ := descend_of_exec hq h
  have hd := descends_of_descend ha
  obtain ⟨hf, rfl⟩ := (losesCall_iff ha).mp hl
  rw [Landing.settle_of_inHook (hd.inHook.trans hw), Landing.counted] at hs
  cases hs
  rw [tally_countAll_of_ne Counter.noConfusion, Landing.tally_ended, hd.tally, hf]
  simp [Fate.counter]

/-- Each command of a run that loses a line adds one to the failures of the logger that lost it. -/
def CountsLosses (f : OnFailure) (held : List LoggerId) (cs : List Command) (w u : State) : Prop :=
  ∀ before c after, cs = before ++ c :: after → ∃ s t r,
    w.execAll f held before = some s ∧ s.exec f held c = some (t, r) ∧
      t.execAll f held after = some u ∧
        ∀ l e, s.Loses c l e →
          ∀ k, t.tally k .writeFailure = s.tally k .writeFailure + if k = l then 1 else 0

theorem countsLosses {cs : List Command} (hw : w.inHook = true)
    (h : w.execAll (onFailure depth) held cs = some u) :
    CountsLosses (onFailure depth) held cs w u := by
  rintro before c after rfl
  rw [execAll_append] at h
  obtain ⟨s, hs, h⟩ := Option.bind_eq_some_iff.mp h
  have hi := (execAll_unhooked hw hs).inHook.trans hw
  rw [execAll] at h
  split at h
  · cases h
  · next t r ht =>
    exact ⟨s, t, r, hs, ht, h, fun l e hl => tally_of_loses hi ht hl⟩

/-- The one run of a hook in a command: the line is counted as lost at `start`, the hook is done at
`finish`, and the loggers `held` have handed the line on and are still locked. -/
structure HookRun (w u : State) (l : LoggerId) (h : HookId) (e : IoError) (held : List LoggerId)
    (start finish : State) : Prop where
  unhooked : Unhooked w start
  counted : ∀ k, start.tally k .writeFailure = w.tally k .writeFailure + if k = l then 1 else 0
  run : (start.enterHook l h e).execAll (onFailure 0) held ((w.hooks.get h).body e) = some finish
  losses : CountsLosses (onFailure 0) held ((w.hooks.get h).body e) (start.enterHook l h e) finish
  ended : u = (finish.leaveHook l).countAll held .written

theorem hookRun_of_descends {h : HookId} {finish : State} (hd : Descends w a)
    (hf : a.fate = .lost e)
    (hr : State.execAll (onFailure 0) a.passed ((a.ended.hooks.get h).body e)
      (a.ended.enterHook a.logger h e) = some finish) :
    HookRun w ((finish.leaveHook a.logger).countAll a.passed .written) a.logger h e a.passed
      a.ended finish := by
  rw [(Landing.leaves_ended hd).hooks] at hr
  refine ⟨Landing.unhooked_ended hd, fun k => ?_, hr, countsLosses rfl hr, rfl⟩
  rw [Landing.tally_ended, hd.tally, hf]
  simp [Fate.counter]

theorem HookRun.marks {h : HookId} {start finish : State}
    (hr : HookRun w u l h e held start finish) :
    u.inHook = false ∧ ∃ es, u.journal = w.journal ++ es ∧ hookMarks es = hookCall l h e := by
  obtain ⟨es, hj, hm⟩ := hr.unhooked.journal
  obtain ⟨fs, hj', hm'⟩ := journal_of_hook hr.run
  have hu := unhooked_countAll (finish.leaveHook l) held .written
  obtain ⟨gs, hj'', hm''⟩ := hu.journal
  refine ⟨hr.ended ▸ hu.inHook, es ++ fs ++ gs, ?_, ?_⟩
  · rw [hr.ended, hj'', hj', hj]
    simp only [List.append_assoc]
  · rw [hookMarks_append, hookMarks_append, hm, hm', hm'']
    rfl

theorem perform_cases {r : Reply} (hw : w.inHook = false) (h : w.perform c = some (u, r)) :
    (Unhooked w u ∧ ∀ l e, w.Loses c l e → (w.logger l).hook = none) ∨
      ∃ l k e held start finish, HookRun w u l k e held start finish ∧
        (w.logger l).hook = some k ∧ ∀ l' e', w.Loses c l' e' ↔ l = l' ∧ e = e' := by
  cases hc : c.call? with
  | none =>
    refine .inl ⟨unhooked_of_no_call hc h, ?_⟩
    rintro l e ⟨q, hq, -⟩
    cases hc.symm.trans hq
  | some q =>
    obtain ⟨a, ha, hs⟩ := descend_of_exec hc h
    have hd := descends_of_descend ha
    have hk : a.state.logger a.logger = w.logger a.logger := congrArg (·.get a.logger) hd.loggers
    have hl : ∀ l e, w.Loses c l e ↔ a.fate = .lost e ∧ a.logger = l := by
      intro l e
      rw [← losesCall_iff ha]
      simp [Loses, hc]
    obtain ⟨hn, rfl⟩ | ⟨e, k, v, hf, hh, hr, rfl⟩ := Landing.settle_cases (hd.inHook.trans hw) hs
    · refine .inl ⟨Landing.unhooked_counted hd, fun l e hls => ?_⟩
      obtain ⟨hf, rfl⟩ := (hl l e).mp hls
      exact hk ▸ hn e hf
    · rw [List.append_nil] at hr
      refine .inr ⟨_, k, e, _, _, v, hookRun_of_descends hd hf hr, hk ▸ hh, fun l' e' => ?_⟩
      rw [hl, hf, Fate.lost.injEq, and_comm]

theorem inHook_of_perform {r : Reply} (hw : w.inHook = false) (h : w.perform c = some (u, r)) :
    u.inHook = false := by
  obtain ⟨hu, -⟩ | ⟨l, k, e, held, s, v, hr, -⟩ := perform_cases hw h
  · exact hu.inHook.trans hw
  · exact hr.marks.1

/-- A command outside of hooks runs at most one hook, and runs one exactly if it loses a line on a
logger that has one, however deep hooks might nest. -/
theorem hook_discipline (hw : w.inHook = false) :
    (∀ depth, w.exec (onFailure (depth + 1)) [] c = w.perform c) ∧
      ∀ u r, w.perform c = some (u, r) →
        u.inHook = false ∧ ∃ es, u.journal = w.journal ++ es ∧
          (hookMarks es = [] ∨ ∃ l h e, hookMarks es = hookCall l h e) ∧
          (∀ l h e, hookMarks es = hookCall l h e ↔
            w.Loses c l e ∧ (w.logger l).hook = some h) ∧
          ∀ l h e, w.Loses c l e → (w.logger l).hook = some h →
            ∃ held start finish, HookRun w u l h e held start finish := by
  refine ⟨fun depth => exec_of_not_inHook hw depth 0 [] c, fun u r hu => ?_⟩
  obtain ⟨hc, hn⟩ | ⟨l, h, e, held, s, v, hr, hh, hl⟩ := perform_cases hw hu
  · obtain ⟨es, hj, hm⟩ := hc.journal
    have hno : ∀ l h e, w.Loses c l e → (w.logger l).hook ≠ some h := by
      intro l h e hls hh
      rw [hn l e hls] at hh
      cases hh
    refine ⟨hc.inHook.trans hw, es, hj, .inl hm, fun l h e => ⟨fun h' => ?_, ?_⟩, ?_⟩
    · rw [hm] at h'
      cases h'
    · rintro ⟨hls, hh⟩
      exact absurd hh (hno l h e hls)
    · intro l h e hls hh
      exact absurd hh (hno l h e hls)
  · obtain ⟨hi, es, hj, hm⟩ := hr.marks
    refine ⟨hi, es, hj, .inr ⟨l, h, e, hm⟩, fun l' h' e' => ⟨fun h'' => ?_, ?_⟩, ?_⟩
    · rw [hm] at h''
      cases h''
      exact ⟨(hl l e).mpr ⟨rfl, rfl⟩, hh⟩
    · rintro ⟨hls, hh'⟩
      obtain ⟨rfl, rfl⟩ := (hl l' e').mp hls
      cases hh.symm.trans hh'
      exact hm
    · intro l' h' e' hls hh'
      obtain ⟨rfl, rfl⟩ := (hl l' e').mp hls
      cases hh.symm.trans hh'
      exact ⟨held, s, v, hr⟩

def brokenPipe : IoError := ⟨.brokenPipe, "gone"⟩

/-- Logger 0 writes to a device that fails, and its hook logs through it once more. Logger 1 writes
to logger 0. -/
def failing : State :=
  let device : Device := { writes := [.takes 3, .fails brokenPipe, .fails brokenPipe] }
  let again : Hook := ⟨"again", fun e => [.log 0 .warn true (.text e.text)]⟩
  let last : Logger := { timeFormat := ⟨"%H"⟩, sink := .outlet (.device 0), hook := some 0 }
  let first : Logger := { timeFormat := ⟨"%H"⟩, sink := .writer ⟨0, .info⟩ }
  let loggers : Store Logger := { fallback := last }
  { loggers := (loggers.add last).add first
    buffers := { fallback := [] }
    devices := { fallback := device }
    clocks := { fallback := .fixed ⟨0, 0, 0⟩ }
    hooks := { fallback := again } }

theorem hook_of_failing_runs_once : ∃ u r es,
    failing.perform (.info 1 "up") = some (u, r) ∧ u.journal = failing.journal ++ es ∧
      u.inHook = false ∧ hookMarks es = hookCall 0 0 brokenPipe := by
  obtain ⟨⟨u, r⟩, hu⟩ : ∃ p, failing.perform (.info 1 "up") = some p :=
    Option.isSome_iff_exists.mp (by cbv)
  have hl : failing.Loses (.info 1 "up") 0 brokenPipe :=
    ⟨_, rfl, by cbv, [⟨0, .info⟩], .device 0, ⟨rfl, rfl⟩, by decide, rfl, by cbv⟩
  obtain ⟨hi, es, hj, -, hm, -⟩ := (hook_discipline (w := failing) rfl).2 u r hu
  exact ⟨u, r, es, hu, hj, hi, (hm 0 0 brokenPipe).mpr ⟨hl, rfl⟩⟩

end LineLogger.State
