import LineLogger.Sink.Device
import Mathlib

namespace LineLogger

namespace WriteOutcome

def isInterruption : WriteOutcome → Bool
  | .fails e => e.isInterrupted
  | .takes _ => false
  | .takesAll => false

def uninterrupted (os : List WriteOutcome) : List WriteOutcome :=
  os.filter (fun o => !o.isInterruption)

/-- Why a delivery ends with this outcome, if it does. -/
def refusal? : WriteOutcome → Option IoError
  | .takes 0 => some IoError.nothingTaken
  | .takes (_ + 1) => none
  | .takesAll => none
  | .fails e => some e

def capacity : WriteOutcome → ℕ∞
  | .takes n => n
  | .takesAll => ⊤
  | .fails _ => 0

/-- How many bytes get through before a call is refused. A plan that is used up lets everything
through. -/
def room : List WriteOutcome → ℕ∞
  | [] => ⊤
  | o :: os => if o.refusal?.isSome then 0 else o.capacity + room os

def refusal (os : List WriteOutcome) : Option IoError := os.findSome? refusal?

theorem room_of_refusal_none {os : List WriteOutcome} (h : refusal os = none) : room os = ⊤ := by
  induction os with
  | nil => rfl
  | cons o os ih =>
    rw [refusal, List.findSome?_cons] at h
    cases ho : o.refusal? with
    | some e => simp [ho] at h
    | none =>
      rw [ho] at h
      rw [room, ho, ih h]
      exact add_top _

theorem isInterrupted_of_refusal {os : List WriteOutcome} {e : IoError}
    (h : refusal (uninterrupted os) = some e) : e.isInterrupted = false := by
  obtain ⟨o, ho, hr⟩ := List.exists_of_findSome?_eq_some h
  obtain ⟨-, hi⟩ := List.mem_filter.mp ho
  cases o with
  | takes n =>
    cases n with
    | zero =>
      cases hr
      rfl
    | succ n => cases hr
  | takesAll => cases hr
  | fails e' =>
    cases hr
    simpa [isInterruption] using hi

variable {o : WriteOutcome} {m n : Nat}

theorem answer_ok (h : o.answer m = .ok n) : (n : ℕ∞) = min o.capacity m := by
  cases o with
  | takes k =>
    cases h
    rfl
  | takesAll =>
    cases h
    exact (min_eq_right le_top).symm
  | fails e => cases h

theorem refusal?_of_ok (h : o.answer m = .ok n) (hm : m ≠ 0) :
    o.refusal? = if n = 0 then some IoError.nothingTaken else none := by
  cases o with
  | takes k =>
    cases h
    cases k with
    | zero => simp [refusal?]
    | succ k => simp [refusal?, hm]
  | takesAll =>
    cases h
    simp [refusal?, hm]
  | fails e => cases h

theorem isInterruption_of_ok (h : o.answer m = .ok n) : o.isInterruption = false := by
  cases o with
  | takes k => rfl
  | takesAll => rfl
  | fails e => cases h

theorem eq_fails_of_error {e : IoError} (h : o.answer m = .error e) : o = .fails e := by
  cases o <;> cases h
  rfl

end WriteOutcome

namespace Device

open WriteOutcome

def nextWrite (d : Device) : WriteOutcome := d.writes.headD .takesAll

variable {d : Device} {b : Bytes}

theorem uninterrupted_of_interrupted (h : d.nextWrite.isInterruption = true) :
    uninterrupted (d.afterWrite b).writes = uninterrupted d.writes := by
  rw [nextWrite] at h
  rw [afterWrite]
  cases hw : d.writes with
  | nil => rw [hw] at h; cases h
  | cons o os => rw [hw] at h; simp_all [uninterrupted]

theorem room_of_lasting (h : d.nextWrite.isInterruption = false) :
    room (uninterrupted d.writes) = if d.nextWrite.refusal?.isSome then 0
      else d.nextWrite.capacity + room (uninterrupted (d.afterWrite b).writes) := by
  rw [nextWrite] at *
  cases hw : d.writes with
  | nil => simp [afterWrite, hw, uninterrupted, room, refusal?, capacity]
  | cons o os =>
    rw [hw] at h
    have ho : o.isInterruption = false := h
    simp [afterWrite, hw, uninterrupted, room, ho]

theorem refusal_of_lasting (h : d.nextWrite.isInterruption = false) :
    refusal (uninterrupted d.writes) =
      d.nextWrite.refusal?.or (refusal (uninterrupted (d.afterWrite b).writes)) := by
  rw [nextWrite] at *
  cases hw : d.writes with
  | nil => simp [afterWrite, hw, uninterrupted, refusal, refusal?]
  | cons o os =>
    rw [hw] at h
    have ho : o.isInterruption = false := h
    cases hr : o.refusal? <;> simp [afterWrite, hw, uninterrupted, refusal, ho, hr]

/-- What a delivery leaves in the device, and what stopped it. -/
structure Delivers (d : Device) (b p : Bytes) (d' : Device) (failure : Option IoError) : Prop where
  isPrefix : p <+: b
  length : (p.length : ℕ∞) = min (room (uninterrupted d.writes)) b.length
  data : d'.data = d.data ++ p
  failure : failure = if p = b then none else refusal (uninterrupted d.writes)

theorem nextWrite_of_error {e : IoError} (h : d.answerTo b = .error e) : d.nextWrite = .fails e :=
  eq_fails_of_error h

theorem Delivers.interrupted {p : Bytes} {d' : Device} {e : IoError} {failure : Option IoError}
    (h : d.answerTo b = .error e) (hi : e.isInterrupted = true)
    (hd : Delivers (d.afterWrite b) b p d' failure) : Delivers d b p d' failure := by
  have hn : d.nextWrite.isInterruption = true := by rw [nextWrite_of_error h]; exact hi
  have hw := uninterrupted_of_interrupted (b := b) hn
  refine ⟨hd.isPrefix, hw ▸ hd.length, ?_, hw ▸ hd.failure⟩
  rw [hd.data, data_afterWrite, h]
  simp [Call.taken]

theorem Delivers.refused {e : IoError} (hb : b ≠ []) (hn : d.nextWrite.isInterruption = false)
    (hr : d.nextWrite.refusal? = some e) (ht : (Call.write b (d.answerTo b)).taken = []) :
    Delivers d b [] (d.afterWrite b) (some e) := by
  refine ⟨List.nil_prefix, ?_, ?_, ?_⟩
  · rw [room_of_lasting (b := b) hn, hr]
    simp
  · rw [data_afterWrite, ht]
  · rw [if_neg (Ne.symm hb), refusal_of_lasting (b := b) hn, hr]
    rfl

theorem Delivers.taken {n : Nat} {p : Bytes} {d' : Device} {failure : Option IoError}
    (hb : b ≠ []) (h : d.answerTo b = .ok n) (hn : n ≠ 0)
    (hd : Delivers (d.afterWrite b) (b.drop n) p d' failure) :
    Delivers d b (b.take n ++ p) d' failure := by
  have hl : d.nextWrite.isInterruption = false := isInterruption_of_ok h
  have hr : d.nextWrite.refusal? = none :=
    (refusal?_of_ok h (by simpa using hb)).trans (if_neg hn)
  have hc : (n : ℕ∞) = min d.nextWrite.capacity b.length := answer_ok h
  refine ⟨?_, ?_, ?_, ?_⟩
  · have := List.prefix_append_right_inj (b.take n) |>.mpr hd.isPrefix
    rwa [List.take_append_drop] at this
  · have hle : n ≤ b.length := by exact_mod_cast hc ▸ min_le_right _ _
    -- The room is what this write has and what the later ones have, up to the whole text.
    have hlen : (b.length : ℕ∞) = n + (b.drop n).length := by
      rw [List.length_drop]
      exact_mod_cast (Nat.add_sub_cancel' hle).symm
    rw [room_of_lasting (b := b) hl, hr, List.length_append, List.length_take, Nat.min_eq_left hle,
      Nat.cast_add, hd.length]
    calc (n : ℕ∞) + min (room (uninterrupted (d.afterWrite b).writes)) (b.drop n).length
        = min (n + room (uninterrupted (d.afterWrite b).writes)) b.length := by
          rw [hlen, min_add_add_left]
      _ = min (d.nextWrite.capacity + room (uninterrupted (d.afterWrite b).writes)) b.length := by
          rw [hc, ← min_add_add_right, min_assoc, min_eq_right le_self_add]
  · rw [hd.data, data_afterWrite, h]
    simp [Call.taken]
  · have hp : b.take n ++ p = b ↔ p = b.drop n := by
      conv => lhs; rhs; rw [← List.take_append_drop n b]
      exact List.append_right_inj _
    rw [hd.failure, refusal_of_lasting (b := b) hl, hr]
    simp only [hp, Option.none_or]

theorem delivers_writeAll (d : Device) (b : Bytes) :
    ∃ p, Delivers d b p (d.writeAll b).1 (d.writeAll b).2 := by
  fun_induction writeAll d b with
  | case1 d => exact ⟨[], List.nil_prefix, by simp, by simp, by simp⟩
  | case2 d b hb e h hi hs ih =>
    obtain ⟨p, hp⟩ := ih
    exact ⟨p, hp.interrupted h hi⟩
  | case3 d b hb e h hi =>
    refine ⟨[], Delivers.refused hb ?_ ?_ ?_⟩
    · rw [nextWrite_of_error h]
      exact Bool.not_eq_true _ ▸ hi
    · rw [nextWrite_of_error h]
      rfl
    · rw [h]
      rfl
  | case4 d b hb h =>
    refine ⟨[], Delivers.refused hb (isInterruption_of_ok h) ?_ ?_⟩
    · exact (refusal?_of_ok h (by simpa using hb)).trans (if_pos rfl)
    · rw [h]
      rfl
  | case5 d b hb n hn h hs ih =>
    obtain ⟨p, hp⟩ := ih
    exact ⟨b.take n ++ p, hp.taken hb hn h⟩

theorem Delivers.eq_of_refusal_none {p : Bytes} {d' : Device} {failure : Option IoError}
    (h : Delivers d b p d' failure) (hr : refusal (uninterrupted d.writes) = none) : p = b := by
  have hl := h.length
  rw [room_of_refusal_none hr, min_eq_right le_top] at hl
  exact h.isPrefix.eq_of_length (by exact_mod_cast hl)

end Device

end LineLogger
