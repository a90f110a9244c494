import LineLogger.Proofs.Chain
import LineLogger.Proofs.Hooks
import Mathlib

namespace LineLogger

namespace Landing

variable {a : Landing} {ls : List LoggerId} {k : LoggerId}

theorem path_eq_append : a.path = ls ++ [k] ↔ a.passed = ls.reverse ∧ a.logger = k := by
  rw [path, List.reverse_cons, List.append_singleton_inj, List.reverse_eq_iff]

theorem counters_of_path (h : a.path = ls ++ [k]) :
    a.counters = fun l => if l ∈ ls then some .written
      else if l = k then some a.fate.counter else none := by
  obtain ⟨hp, hl⟩ := path_eq_append.mp h
  funext l
  rw [counters, hp, hl]
  simp only [List.mem_reverse]

theorem counters_of_written (h : a.fate = .written) :
    a.counters = fun l => if l ∈ a.path then some .written else none := by
  funext l
  rw [counters, h, path]
  by_cases hl : l ∈ a.passed
  · simp [hl]
  · simp [hl, Fate.counter]

theorem readers_of_ne (h : a.fate ≠ .filtered) : a.readers = a.path := by
  rw [readers]
  split
  · next hf => exact absurd hf h
  · rfl
  · rfl

end Landing

namespace State

variable {c : Command} {q : Call} {w : State} {vs us : List Writer} {v : Writer} {o : Outlet}
  {depth : Nat} {held ls : List LoggerId} {l : LoggerId} {a : Landing}

theorem length_lt_size (hn : (loggersOf l vs).Nodup)
    (hs : ∀ k ∈ loggersOf l vs, k < w.loggers.size) : vs.length < w.loggers.size := by
  have hsub : loggersOf l vs ⊆ List.range w.loggers.size :=
    fun k hk => List.mem_range.mpr (hs k hk)
  have := hn.length_le_of_subset hsub
  rw [List.length_range, loggersOf, List.length_cons, List.length_map] at this
  exact this

theorem chain_written (hq : c.call? = some q) (hd : w.descend w.loggers.size held q = some a)
    (hl : Lands w q.logger vs o (w.chainLine q vs) a) (hn : (loggersOf q.logger vs).Nodup)
    (he : (w.deliver o (w.chainLine q vs)).2 = none) (f : OnFailure) :
    ∃ u, w.exec f held c = some (u, c.reply) ∧
      Leaves w u (w.deliver o (w.chainLine q vs)).1.outlets (loggersOf q.logger vs)
        (fun k => if k ∈ loggersOf q.logger vs then some .written else none)
        ((loggersOf q.logger vs).map .reached) := by
  have hf : a.fate = .written := by
    rw [hl.fate, he]
    rfl
  have hx := Landing.leaves_counted (descends_of_descend hd) (hl.path ▸ hn)
  rw [hl.outlets, Landing.readers_of_ne (hf ▸ Fate.noConfusion), Landing.counters_of_written hf,
    Landing.losses, hf, hl.path, List.append_nil] at hx
  refine ⟨a.counted, ?_, hx⟩
  rw [exec_of_descend hq f hd, Landing.settle, hf]
  rfl

theorem chain_lost {e : IoError} (hq : c.call? = some q)
    (hd : w.descend w.loggers.size held q = some a)
    (hl : Lands w q.logger vs o (w.chainLine q vs) a) (hp : loggersOf q.logger vs = ls ++ [l])
    (he : (w.deliver o (w.chainLine q vs)).2 = some e) (f : OnFailure) :
    ∃ u, Leaves w u (w.deliver o (w.chainLine q vs)).1.outlets (ls ++ [l])
        (fun k => if k = l then some .writeFailure else none)
        ((ls ++ [l]).map .reached ++ [.lost l e]) ∧
      w.exec f held c =
        (f (ls.reverse ++ held) l e u).map
          (fun x => (x.countAll ls.reverse .written, c.reply)) := by
  have hf : a.fate = .lost e := by
    rw [hl.fate, he]
    rfl
  have hx := Landing.leaves_ended (descends_of_descend hd)
  obtain ⟨hps, rfl⟩ := Landing.path_eq_append.mp (hl.path.trans hp)
  rw [hl.outlets, Landing.readers_of_ne (hf ▸ Fate.noConfusion), Landing.losses, hf, hl.path,
    hp] at hx
  refine ⟨a.ended, hx, ?_⟩
  rw [exec_of_descend hq f hd, Landing.settle, hf, ← hps]
  exact Option.map_map _ _ _

theorem chain_filtered {rest : List Writer} (hq : c.call? = some q) (ha : w.admits q = true)
    (hc : w.Chained q.logger (us ++ v :: rest) o)
    (hn : (loggersOf q.logger (us ++ v :: rest)).Nodup)
    (hs : ∀ l ∈ loggersOf q.logger (us ++ v :: rest), l < w.loggers.size)
    (hh : ∀ l ∈ loggersOf q.logger (us ++ v :: rest), l ∉ held)
    (hu : ∀ u ∈ us, w.lets u = true) (hv : w.lets v = false) (f : OnFailure) :
    ∃ u, w.exec f held c = some (u, c.reply) ∧
      Leaves w u w.outlets (loggersOf q.logger us)
        (fun k => if k ∈ loggersOf q.logger us then some .written
          else if k = v.logger then some .filtered else none)
        ((loggersOf q.logger us ++ [v.logger]).map .reached) := by
  have hap : loggersOf q.logger (us ++ v :: rest) =
      (loggersOf q.logger us ++ [v.logger]) ++ rest.map (·.logger) := by
    simp [loggersOf]
  have hmem : ∀ l ∈ loggersOf q.logger us, l ∈ loggersOf q.logger (us ++ v :: rest) := by
    intro l hl
    rw [hap]
    exact List.mem_append_left _ (List.mem_append_left _ hl)
  rw [hap, List.nodup_append] at hn
  have hn' := (List.nodup_append.mp hn.1).1
  obtain ⟨a, hd, hp, hf⟩ := descend_of_not_lets hc ha hu hv hn' (fun l hl => hh l (hmem l hl))
    (length_lt_size hn' (fun l hl => hs l (hmem l hl)))
  have hx := Landing.leaves_counted (descends_of_descend hd) (hp ▸ hn.1)
  have hr : a.readers = loggersOf q.logger us := by
    rw [Landing.readers, hf, (Landing.path_eq_append.mp hp).1]
    exact List.reverse_reverse _
  rw [(descends_of_descend hd).outlets hf, hr, Landing.counters_of_path hp, Landing.losses, hf,
    hp, List.append_nil] at hx
  refine ⟨a.counted, ?_, hx⟩
  rw [exec_of_descend hq f hd, Landing.settle, hf]
  rfl

theorem marks_after_loss {e : IoError} {u x : State} {es : List Event}
    (hj : u.journal = w.journal ++ es) (hm : hookMarks es = [])
    (hk : (u.logger l).hook = (w.logger l).hook) (hx : onFailure depth held l e u = some x) :
    ∃ fs, x.journal = w.journal ++ fs ∧ (hookMarks fs = [] ∨
      ∃ h, (w.logger l).hook = some h ∧ hookMarks fs = hookCall l h e) := by
  obtain ⟨fs, hfs, hm'⟩ := journal_of_onFailure hx
  refine ⟨es ++ fs, ?_, ?_⟩
  · rw [hfs, hj, List.append_assoc]
  · rw [hookMarks_append, hm, ← hk]
    exact hm'

/-- The line of a call goes through a chain of different loggers as far as their thresholds let it,
and the outlet at the end is offered the one line with the time stamps of all. -/
theorem chain_delivery (depth : Nat) (held : List LoggerId) (hq : c.call? = some q)
    (ha : w.admits q = true) (hc : w.Chained q.logger vs o)
    (hp : loggersOf q.logger vs = ls ++ [l]) (hn : (ls ++ [l]).Nodup)
    (hs : ∀ k ∈ ls ++ [l], k < w.loggers.size) (hh : ∀ k ∈ ls ++ [l], k ∉ held) :
    ((∀ v ∈ vs, w.lets v = true) →
      match w.deliver o (w.chainLine q vs) with
      | (d, none) =>
        ∃ u, w.exec (onFailure depth) held c = some (u, c.reply) ∧
          Leaves w u d.outlets (ls ++ [l])
            (fun k => if k ∈ ls ++ [l] then some .written else none)
            ((ls ++ [l]).map .reached)
      | (d, some e) =>
        ∃ u, Leaves w u d.outlets (ls ++ [l])
            (fun k => if k = l then some .writeFailure else none)
            ((ls ++ [l]).map .reached ++ [.lost l e]) ∧
          w.exec (onFailure depth) held c =
            (onFailure depth (ls.reverse ++ held) l e u).map
              (fun x => (x.countAll ls.reverse .written, c.reply)) ∧
          (w.inHook = true ∨ (w.logger l).hook = none →
            onFailure depth (ls.reverse ++ held) l e u = some u) ∧
          ∀ x, onFailure depth (ls.reverse ++ held) l e u = some x →
            (∀ k, (x.countAll ls.reverse .written).logger k =
              if k ∈ ls then (x.logger k).count .written else x.logger k) ∧
            ∃ es, x.journal = w.journal ++ es ∧ (hookMarks es = [] ∨
              ∃ h, (w.logger l).hook = some h ∧ hookMarks es = hookCall l h e)) ∧
    ∀ us v rest, vs = us ++ v :: rest → (∀ u ∈ us, w.lets u = true) → w.lets v = false →
      ∃ u, w.exec (onFailure depth) held c = some (u, c.reply) ∧
        Leaves w u w.outlets (loggersOf q.logger us)
          (fun k => if k ∈ loggersOf q.logger us then some .written
            else if k = v.logger then some .filtered else none)
          ((loggersOf q.logger us ++ [v.logger]).map .reached) := by
  have hn' := hp ▸ hn
  have hs' := hp ▸ hs
  have hh' := hp ▸ hh
  refine ⟨fun hv => ?_, ?_⟩
  · obtain ⟨a, hd⟩ := exists_descend hc ha hv hn' hh' (length_lt_size hn' hs')
    have hl := lands_of_descend hc ha hv hd
    have hw := chain_written hq hd hl hn'
    have hf := fun e => chain_lost (e := e) hq hd hl hp
    rw [hp] at hw
    generalize w.deliver o (w.chainLine q vs) = p at hw hf
    obtain ⟨d, _ | e⟩ := p
    · exact hw rfl _
    · obtain ⟨u, hx, he⟩ := hf e rfl (onFailure depth)
      have hm : hookMarks ((ls ++ [l]).map .reached ++ [.lost l e]) = [] := by
        rw [hookMarks_append, hookMarks_reached]
        rfl
      have hr : ls.reverse.Nodup :=
        List.pairwise_reverse.mpr ((List.nodup_append.mp hn).1.imp Ne.symm)
      refine ⟨u, hx, he, ?_, fun x h => ⟨fun k => ?_, marks_after_loss hx.journal hm (hx.hook l) h⟩⟩
      · rintro (hi | hk)
        · exact onFailure_of_inHook (hx.inHook.trans hi) depth _ l e
        · exact onFailure_of_no_hook ((hx.hook l).trans hk) depth _ e
      · rw [logger_countAll x hr]
        simp only [List.mem_reverse]
  · rintro us v rest rfl hu hv
    exact chain_filtered hq ha hc hn' hs' hh' hu hv _

/-- Logger 0 writes to a buffer, and logger 1 to logger 0. -/
def relay : State :=
  let last : Logger := { timeFormat := ⟨"%H"⟩, sink := .outlet (.buffer 0) }
  let first : Logger := { timeFormat := ⟨"%M"⟩, sink := .writer ⟨0, .info⟩ }
  let loggers : Store Logger := { fallback := last }
  { loggers := (loggers.add last).add first
    buffers := { fallback := [] }
    devices := { fallback := {} }
    clocks := { fallback := .stepping ⟨3600, 0, 0⟩ 60000000000 }
    hooks := { fallback := ⟨"", fun _ => []⟩ } }

theorem relay_delivers_one_line : ∃ u, relay.perform (.info 1 "up") = some (u, .done) ∧
    u.buffers.get 0 = Text.Utf8.ofString "01\t00\tINF up\n\n" ∧
      u.tally 0 .written = 1 ∧ u.tally 1 .written = 1 := by
  have hc : relay.Chained 1 [⟨0, .info⟩] (.buffer 0) := ⟨rfl, rfl⟩
  have hp : loggersOf 1 [⟨0, .info⟩] = [1] ++ [0] := rfl
  obtain ⟨u, hu, hx⟩ := (chain_delivery (c := .info 1 "up") 1 [] rfl (by decide) hc hp
    (by decide) (by decide) (by decide)).1 (by decide)
  have hb := congrArg (fun d => d.buffers.get 0) hx.outlets
  have hl : relay.chainLine (.typed 1 .info true (.formatted "up")) [⟨0, .info⟩] =
      Text.Utf8.ofString "01\t00\tINF up\n\n" := by cbv
  refine ⟨u, hu, hb.trans hl, ?_, ?_⟩
  · rw [tally, hx.loggers]
    decide
  · rw [tally, hx.loggers]
    decide

end State

end LineLogger
