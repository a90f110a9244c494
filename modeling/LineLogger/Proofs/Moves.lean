import LineLogger.Concurrent
import LineLogger.Proofs.Frames
import Mathlib

namespace LineLogger.Concurrent

structure Turn where
  thread : Nat
  request : Request

inductive Act
  | filter
  | accept
  | acquire (r : Request)
  | render
  | write (b : Bytes)
  | release
  | count

/-- What a run has come to: the calls that are done with the lock, the one that has it, and how much
of its line is out. -/
structure History where
  done : List Turn := []
  current : Option Turn := none
  part : Bytes := []

namespace History

def turns (h : History) : List Turn := h.done ++ h.current.toList

theorem turns_of_none {h : History} (hc : h.current = none) : h.turns = h.done := by
  rw [turns, hc]
  exact List.append_nil _

theorem turns_of_some {h : History} {c : Turn} (hc : h.current = some c) :
    h.turns = h.done ++ [c] := by
  rw [turns, hc]
  rfl

def after (h : History) (i : Nat) : Act → History
  | .acquire r => { h with current := some ⟨i, r⟩ }
  | .write b => { h with part := h.part ++ b }
  | .release => { done := h.turns }
  | .filter => h
  | .accept => h
  | .render => h
  | .count => h

end History

def requestsOf (i : Nat) (ts : List Turn) : List Request :=
  (ts.filter (·.thread = i)).map (·.request)

namespace Phase

def pending : Phase → List Request
  | .waiting r => [r]
  | .idle => []
  | .locked _ => []
  | .writing _ => []
  | .unlocked => []

def inside : Phase → Bool
  | .locked _ => true
  | .writing _ => true
  | .idle => false
  | .waiting _ => false
  | .unlocked => false

def uncounted : Phase → Nat
  | .unlocked => 1
  | .idle => 0
  | .waiting _ => 0
  | .locked _ => 0
  | .writing _ => 0

end Phase

namespace Thread

/-- The requests that are still to get the lock. -/
def accepted (g : Logger) (t : Thread) : List Request :=
  t.phase.pending ++ t.todo.filter (g.admits ·.level)

def refused (g : Logger) (t : Thread) : Nat := t.todo.countP (!g.admits ·.level)

end Thread

namespace Machine

variable {m n : Machine} {act : Act} {i j part : Nat} {t t' : Thread}

inductive Move (m : Machine) (i : Nat) : Act → Machine → Prop
  | filter (r : Request) (rs : List Request) (ht : m.threads[i]? = some ⟨r :: rs, .idle⟩)
      (ha : m.logger.admits r.level = false) :
      Move m i .filter ({ m with logger := m.logger.count .filtered }.setThread i ⟨rs, .idle⟩)
  | accept (r : Request) (rs : List Request) (ht : m.threads[i]? = some ⟨r :: rs, .idle⟩)
      (ha : m.logger.admits r.level = true) : Move m i .accept (m.setThread i ⟨rs, .waiting r⟩)
  | acquire (r : Request) (rs : List Request) (ht : m.threads[i]? = some ⟨rs, .waiting r⟩)
      (ho : m.owner = none) :
      Move m i (.acquire r) ({ m with owner := some i }.setThread i ⟨rs, .locked r⟩)
  | render (r : Request) (rs : List Request) (ht : m.threads[i]? = some ⟨rs, .locked r⟩) :
      Move m i .render ({ m with clock := m.clock.tick }.setThread i ⟨rs, .writing (m.lineNow r)⟩)
  | write (b rest : Bytes) (rs : List Request) (hb : b ≠ [])
      (ht : m.threads[i]? = some ⟨rs, .writing (b ++ rest)⟩) :
      Move m i (.write b) ({ m with sink := m.sink ++ b }.setThread i ⟨rs, .writing rest⟩)
  | release (rs : List Request) (ht : m.threads[i]? = some ⟨rs, .writing []⟩) :
      Move m i .release ({ m with owner := none }.setThread i ⟨rs, .unlocked⟩)
  | count (rs : List Request) (ht : m.threads[i]? = some ⟨rs, .unlocked⟩) :
      Move m i .count ({ m with logger := m.logger.count .written }.setThread i ⟨rs, .idle⟩)

theorem move_of_step (hs : m.step? i part = some n) : ∃ act, Move m i act n := by
  rw [step?] at hs
  split at hs
  · cases hs
  · next t ht =>
    obtain ⟨todo, phase⟩ := t
    cases phase with
    | idle =>
      cases todo with
      | nil => cases hs
      | cons r rs =>
        cases ha : m.logger.admits r.level with
        | true =>
          simp only [ha, if_true] at hs
          cases hs
          exact ⟨_, .accept r rs ht ha⟩
        | false =>
          simp only [ha, Bool.false_eq_true, if_false] at hs
          cases hs
          exact ⟨_, .filter r rs ht ha⟩
    | waiting r =>
      cases ho : m.owner with
      | some k => simp [ho] at hs
      | none =>
        simp only [ho, Option.isNone_none, if_true] at hs
        cases hs
        exact ⟨_, .acquire r todo ht ho⟩
    | locked r =>
      cases hs
      exact ⟨_, .render r todo ht⟩
    | writing rest =>
      cases rest with
      | nil =>
        cases hs
        exact ⟨_, .release todo ht⟩
      | cons b bs =>
        cases part with
        | zero => cases hs
        | succ k =>
          cases hs
          refine ⟨_, .write ((b :: bs).take (k + 1)) ((b :: bs).drop (k + 1)) todo (by simp) ?_⟩
          rw [List.take_append_drop]
          exact ht
    | unlocked =>
      cases hs
      exact ⟨_, .count todo ht⟩

theorem step_of_move (hm : Move m i act n) : ∃ part, m.step? i part = some n := by
  cases hm with
  | filter r rs ht ha => exact ⟨0, by simp [step?, ht, ha]⟩
  | accept r rs ht ha => exact ⟨0, by simp [step?, ht, ha]⟩
  | acquire r rs ht ho => exact ⟨0, by simp [step?, ht, ho]⟩
  | render r rs ht => exact ⟨0, by simp [step?, ht]⟩
  | write b rest rs hb ht =>
    obtain ⟨x, xs, rfl⟩ := List.exists_cons_of_ne_nil hb
    exact ⟨xs.length + 1, by simp [step?, ht]⟩
  | release rs ht => exact ⟨0, by simp [step?, ht]⟩
  | count rs ht => exact ⟨0, by simp [step?, ht]⟩

/-- The line of the `k`-th call that gets the lock: it carries the `k`-th reading of the clock. -/
def turnLine (m : Machine) (k : Nat) (r : Request) : Bytes :=
  m.logger.line (m.clock.reading (m.clock.taken + k)) (State.tag r.label r.message)

def output (m : Machine) (ts : List Turn) : Bytes :=
  (ts.mapIdx fun k t => m.turnLine k t.request).flatten

theorem output_concat (m : Machine) (ts : List Turn) (c : Turn) :
    m.output (ts ++ [c]) = m.output ts ++ m.turnLine ts.length c.request := by
  simp [output, List.mapIdx_concat]

theorem requestsOf_concat (i : Nat) (ts : List Turn) (c : Turn) :
    requestsOf i (ts ++ [c]) = requestsOf i ts ++ if c.thread = i then [c.request] else [] := by
  rw [requestsOf, List.filter_append, List.map_append, List.filter_singleton]
  split <;> simp_all [requestsOf]

def acceptedOf (m : Machine) (i : Nat) : List Request :=
  (m.threads[i]?.map (·.accepted m.logger)).getD []

def total (m : Machine) (f : Thread → Nat) : Nat := (m.threads.map f).sum

def tally (m : Machine) (c : Counter) : UInt64 := m.logger.metrics.count c

theorem forall_setThread {P : Nat → Thread → Prop} (ht : P i t')
    (hj : ∀ j t, j ≠ i → m.threads[j]? = some t → P j t) :
    ∀ j t, (m.setThread i t').threads[j]? = some t → P j t := by
  intro j t hs
  rw [setThread, List.getElem?_set] at hs
  split at hs
  · next he =>
    subst he
    split at hs
    · cases hs
      exact ht
    · cases hs
  · next he => exact hj j t (Ne.symm he) hs

theorem getElem?_setThread (ht : m.threads[i]? = some t) (t' : Thread) :
    (m.setThread i t').threads[i]? = some t' := by
  obtain ⟨hi, -⟩ := List.getElem?_eq_some_iff.mp ht
  rw [setThread, List.getElem?_set_self hi]

theorem getElem?_setThread_of_ne (hj : j ≠ i) (t' : Thread) :
    (m.setThread i t').threads[j]? = m.threads[j]? := by
  rw [setThread, List.getElem?_set_ne hj.symm]

theorem total_setThread (f : Thread → Nat) (ht : m.threads[i]? = some t) (t' : Thread) :
    (m.setThread i t').total f + f t = m.total f + f t' := by
  obtain ⟨hi, rfl⟩ := List.getElem?_eq_some_iff.mp ht
  obtain ⟨l₁, l₂, hl, -, hs⟩ := List.exists_of_set hi
  have h₁ := congrArg (fun ts => (ts.map f).sum) hl
  have h₂ := congrArg (fun ts => (ts.map f).sum) hs
  simp only [List.map_append, List.map_cons, List.sum_append, List.sum_cons] at h₁ h₂
  rw [total, total, setThread, h₁, h₂]
  omega

theorem total_eq_zero {f : Thread → Nat} (h : ∀ t ∈ m.threads, f t = 0) : m.total f = 0 := by
  refine List.sum_eq_zero fun k hk => ?_
  obtain ⟨t, ht, rfl⟩ := List.mem_map.mp hk
  exact h t ht

end Machine

end LineLogger.Concurrent
