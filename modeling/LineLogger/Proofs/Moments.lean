import LineLogger.Logger.Builder
import LineLogger.Proofs.HookDiscipline

namespace LineLogger

section

variable {σ ι α : Type} {next : ι → σ → Option σ} {note : ι → σ → List α} {i : ι} {is : List ι}
  {w u : σ}

/-- What is noted along a run: each step adds what `note` says of the state that it finds. A run
that ends at a step without a result has the notes up to this one. -/
def gather (next : ι → σ → Option σ) (note : ι → σ → List α) : List ι → σ → List α
  | [], _ => []
  | i :: is, w => note i w ++
      match next i w with
      | none => []
      | some w => gather next note is w

theorem gather_of_some (h : next i w = some u) :
    gather next note (i :: is) w = note i w ++ gather next note is u := by
  rw [gather, h]

/-- What relates the ends of each step to its notes does so for the run, if it can be chained. -/
theorem gather_rel {P : σ → σ → List α → Prop} {I : σ → Prop} (hr : ∀ w, P w w [])
    (ht : ∀ {w u v xs ys}, P w u xs → P u v ys → P w v (xs ++ ys))
    (hs : ∀ i ∈ is, ∀ w u, I w → next i w = some u → P w u (note i w) ∧ I u) (hw : I w)
    (h : is.foldlM (fun w i => next i w) w = some u) : P w u (gather next note is w) ∧ I u := by
  induction is generalizing w with
  | nil =>
    cases h
    exact ⟨hr u, hw⟩
  | cons i is ih =>
    obtain ⟨hi, his⟩ := List.forall_mem_cons.mp hs
    rw [List.foldlM_cons] at h
    obtain ⟨v, hv, h⟩ := Option.bind_eq_some_iff.mp h
    obtain ⟨hp, hv'⟩ := hi w v hw hv
    obtain ⟨hq, hu⟩ := ih his hv' h
    rw [gather_of_some hv]
    exact ⟨ht hp hq, hu⟩

end

inductive Step
  | command (c : Command)
  | create (b : Builder)

/-- A command when it begins, be it one of the program or one of a hook: the state that it finds,
and the loggers whose sinks the thread has locked. -/
structure Moment where
  state : State
  held : List LoggerId
  command : Command

namespace State

def step (s : Step) (w : State) : Option State :=
  match s with
  | .command c => (w.perform c).map (·.1)
  | .create b => some { w with loggers := w.loggers.add b.build }

def follow : List Step → State → Option State
  | [], w => some w
  | s :: ss, w =>
    match w.step s with
    | none => none
    | some w => follow ss w

def bodyMoments (held : List LoggerId) (cs : List Command) (w : State) : List Moment :=
  gather (fun c w => (w.exec (onFailure 0) held c).map (·.1)) (fun c w => [⟨w, held, c⟩]) cs w

def hookMoments (a : Landing) : List Moment :=
  match a.fate, (a.state.logger a.logger).hook with
  | .lost e, some h =>
    (a.ended.enterHook a.logger h e).bodyMoments a.passed ((a.ended.hooks.get h).body e)
  | _, _ => []

def commandMoments (c : Command) (w : State) : List Moment :=
  ⟨w, [], c⟩ :: ((c.call?.bind (w.descend w.loggers.size [])).map hookMoments).getD []

def stepMoments (s : Step) (w : State) : List Moment :=
  match s with
  | .command c => w.commandMoments c
  | .create _ => []

/-- All commands that begin in a run, in the order in which they do. A run that waits forever at
some command has the moments up to this one. -/
def moments (ss : List Step) (w : State) : List Moment := gather step stepMoments ss w

variable {P : State → State → List Moment → Prop} {w u v : State} {ms ns : List Moment}
  {m : Moment} {c : Command} {q : Call} {a : Landing} {r : Reply} {f : OnFailure}
  {held : List LoggerId} {depth : Nat} {cs : List Command} {s : Step} {ss : List Step}
  {h : HookId} {e : IoError}

theorem execAll_eq_foldlM (f : OnFailure) (held : List LoggerId) (cs : List Command) (w : State) :
    w.execAll f held cs = cs.foldlM (fun w c => (w.exec f held c).map (·.1)) w := by
  induction cs generalizing w with
  | nil => rfl
  | cons c cs ih =>
    rw [execAll, List.foldlM_cons]
    cases w.exec f held c with
    | none => rfl
    | some p => exact ih p.1

theorem follow_eq_foldlM (ss : List Step) (w : State) :
    w.follow ss = ss.foldlM (fun w s => w.step s) w := by
  induction ss generalizing w with
  | nil => rfl
  | cons s ss ih =>
    rw [follow, List.foldlM_cons]
    cases w.step s with
    | none => rfl
    | some v => exact ih v

/-- A relation of two states and the commands executed in between: it holds of single commands, and
what a hook or the way back of a line adds to them does not concern it. -/
structure Tracks (P : State → State → List Moment → Prop) : Prop where
  refl : ∀ w, P w w []
  trans : ∀ {w u v ms ns}, P w u ms → P u v ns → P w v (ms ++ ns)
  call : ∀ {w held c q a}, c.call? = some q → w.descend w.loggers.size held q = some a →
    P w a.ended [⟨w, held, c⟩]
  plain : ∀ {w u f held c r}, c.call? = none → w.exec f held c = some (u, r) →
    P w u [⟨w, held, c⟩]
  back : ∀ w ls, P w (w.countAll ls .written) []
  enter : ∀ w l h e, P w (w.enterHook l h e) []
  leave : ∀ w l, P w (w.leaveHook l) []
  create : ∀ w (b : Builder), P w { w with loggers := w.loggers.add b.build } []

theorem hookMoments_of_no_hook
    (h : ∀ e, a.fate = .lost e → (a.state.logger a.logger).hook = none) : hookMoments a = [] := by
  rw [hookMoments]
  split
  · next e k he hk =>
    rw [h e he] at hk
    cases hk
  · rfl

theorem hookMoments_of_hook (hf : a.fate = .lost e)
    (hk : (a.state.logger a.logger).hook = some h) :
    hookMoments a =
      (a.ended.enterHook a.logger h e).bodyMoments a.passed ((a.ended.hooks.get h).body e) := by
  rw [hookMoments, hf, hk]

namespace Tracks

/-- Every one of the moments is related to the start by those before it. -/
def Throughout (P : State → State → List Moment → Prop) (w : State) (ms : List Moment) : Prop :=
  ∀ m ∈ ms, ∃ before, before <+: ms ∧ P w m.state before

theorem throughout_nil (P : State → State → List Moment → Prop) (w : State) :
    Throughout P w [] := by simp [Throughout]

theorem throughout_append (hP : Tracks P) (h : Throughout P w ms) (hu : P w u ms)
    (h' : Throughout P u ns) : Throughout P w (ms ++ ns) := by
  intro m hm
  obtain hm | hm := List.mem_append.mp hm
  · obtain ⟨before, hb, hp⟩ := h m hm
    exact ⟨before, hb.trans (List.prefix_append ms ns), hp⟩
  · obtain ⟨before, hb, hp⟩ := h' m hm
    exact ⟨ms ++ before, (List.prefix_append_right_inj ms).mpr hb, hP.trans hu hp⟩

theorem throughout_singleton (hP : Tracks P) (w : State) (held : List LoggerId) (c : Command) :
    Throughout P w [⟨w, held, c⟩] := by
  intro m hm
  cases List.mem_singleton.mp hm
  exact ⟨[], List.nil_prefix, hP.refl w⟩

theorem exec (hP : Tracks P) (hw : w.inHook = true)
    (h : w.exec (onFailure depth) held c = some (u, r)) : P w u [⟨w, held, c⟩] := by
  cases hc : c.call? with
  | none => exact hP.plain hc h
  | some q =>
    obtain ⟨a, ha, hs⟩ := descend_of_exec hc h
    rw [Landing.settle_of_inHook ((descends_of_descend ha).inHook.trans hw)] at hs
    cases hs
    exact hP.trans (hP.call hc ha) (hP.back a.ended a.passed)

/-- What holds of the steps of a run holds of the run, and whenever a command begins in it. -/
theorem along (hP : Tracks P) {ι : Type} {next : ι → State → Option State}
    {note : ι → State → List Moment} {I : State → Prop} {is : List ι}
    (hs : ∀ i ∈ is, ∀ w, I w → Throughout P w (note i w) ∧
      ∀ u, next i w = some u → P w u (note i w) ∧ I u) (hw : I w) :
    Throughout P w (gather next note is w) ∧ ∀ u,
      is.foldlM (fun w i => next i w) w = some u → P w u (gather next note is w) := by
  -- A run that does not return has moments too, so the first half is no case of `gather_rel`.
  constructor
  · induction is generalizing w with
    | nil => exact throughout_nil P w
    | cons i is ih =>
      obtain ⟨hi, his⟩ := List.forall_mem_cons.mp hs
      obtain ⟨ht, hp⟩ := hi w hw
      rw [gather]
      cases hv : next i w with
      | none =>
        rw [List.append_nil]
        exact ht
      | some u =>
        obtain ⟨hq, hu⟩ := hp u hv
        exact hP.throughout_append ht hq (ih his hu)
  · intro u h
    exact (gather_rel hP.refl hP.trans (fun i hi w u hw => (hs i hi w hw).2 u) hw h).1

theorem body (hP : Tracks P) (hw : w.inHook = true) (held : List LoggerId) (cs : List Command) :
    Throughout P w (w.bodyMoments held cs) ∧
      ∀ u, w.execAll (onFailure 0) held cs = some u → P w u (w.bodyMoments held cs) := by
  simp only [execAll_eq_foldlM]
  refine hP.along (I := (·.inHook = true)) (fun c _ w hw => ?_) hw
  refine ⟨hP.throughout_singleton w held c, fun u h => ?_⟩
  obtain ⟨⟨u, r⟩, hu, rfl⟩ := Option.map_eq_some_iff.mp h
  exact ⟨hP.exec hw hu, (unhooked_of_inHook hw hu).inHook.trans hw⟩

theorem settle (hP : Tracks P) (hw : a.state.inHook = false) :
    Throughout P a.ended (hookMoments a) ∧
      ∀ u, a.settle (onFailure 1) [] = some u → P a.ended u (hookMoments a) := by
  rcases a.hook_cases with hn | ⟨e, h, hf, hh⟩
  · rw [hookMoments_of_no_hook hn]
    refine ⟨throughout_nil P _, fun u hu => ?_⟩
    rw [Landing.settle_of_no_hook hn] at hu
    cases hu
    exact hP.back a.ended a.passed
  · have he := hP.enter a.ended a.logger h e
    obtain ⟨ht, hb⟩ := hP.body (w := a.ended.enterHook a.logger h e) rfl a.passed
      ((a.ended.hooks.get h).body e)
    rw [hookMoments_of_hook hf hh]
    refine ⟨hP.throughout_append (throughout_nil P _) he ht, fun u hu => ?_⟩
    rw [Landing.settle_of_hook hw hf hh, List.append_nil] at hu
    obtain ⟨x, hx, rfl⟩ := Option.map_eq_some_iff.mp hu
    have hl := hP.trans (hP.leave x a.logger) (hP.back _ a.passed)
    simpa only [List.nil_append, List.append_nil] using hP.trans (hP.trans he (hb x hx)) hl

theorem perform (hP : Tracks P) (hw : w.inHook = false) (c : Command) :
    Throughout P w (w.commandMoments c) ∧
      ∀ u r, w.perform c = some (u, r) → P w u (w.commandMoments c) := by
  have h₁ := hP.throughout_singleton w [] c
  cases hc : c.call? with
  | none =>
    rw [commandMoments, hc]
    exact ⟨h₁, fun u r h => hP.plain hc h⟩
  | some q =>
    rw [commandMoments, hc, Option.bind_some]
    cases ha : w.descend w.loggers.size [] q with
    | none =>
      -- The call waits for a lock: it has begun, and nothing comes after it.
      refine ⟨h₁, fun u r h => ?_⟩
      obtain ⟨a, ha', -⟩ := descend_of_exec hc h
      cases ha.symm.trans ha'
    | some a =>
      have he := hP.call hc ha
      obtain ⟨ht, hs⟩ := hP.settle ((descends_of_descend ha).inHook.trans hw)
      refine ⟨hP.throughout_append h₁ he ht, fun u r hu => ?_⟩
      obtain ⟨b, hb, hu⟩ := descend_of_exec hc hu
      cases ha.symm.trans hb
      exact hP.trans he (hs u hu)

theorem step (hP : Tracks P) (hw : w.inHook = false) (s : Step) :
    Throughout P w (w.stepMoments s) ∧
      ∀ u, w.step s = some u → P w u (w.stepMoments s) ∧ u.inHook = false := by
  cases s with
  | create b =>
    refine ⟨throughout_nil P w, fun u h => ?_⟩
    cases h
    exact ⟨hP.create w b, hw⟩
  | command c =>
    obtain ⟨ht, hp⟩ := hP.perform hw c
    refine ⟨ht, fun u h => ?_⟩
    obtain ⟨⟨x, r⟩, hx, rfl⟩ := Option.map_eq_some_iff.mp h
    exact ⟨hp x r hx, inHook_of_perform hw hx⟩

theorem follow (hP : Tracks P) (hw : w.inHook = false) (ss : List Step) :
    Throughout P w (w.moments ss) ∧ ∀ u, w.follow ss = some u → P w u (w.moments ss) := by
  simp only [follow_eq_foldlM]
  exact hP.along (I := (·.inHook = false)) (fun s _ w hw => hP.step hw s) hw

end Tracks

end State

end LineLogger
