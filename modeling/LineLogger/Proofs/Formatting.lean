import LineLogger.Proofs.Simulation

namespace LineLogger

def Call.withMessage (q : Call) (m : Message) : Call := { q with message := m }

namespace State

/-- The state if `k` more messages had been formatted before. -/
def formats (w : State) (k : Nat) : State := { w with formatted := w.formatted + k }

theorem simulation_formats (k : Nat) : Simulation (fun w u => u = w.formats k) where
  shares := by
    rintro w u rfl
    exact ⟨rfl, fun l => ⟨(w.logger l).metrics, rfl⟩, rfl, rfl, rfl, rfl⟩
  note e h := by
    subst h
    rfl
  count l c h := by
    subst h
    rfl
  format := by
    rintro w u rfl
    simp only [formats, Nat.add_right_comm]
  set l s h := by
    subst h
    rfl
  reset l h := by
    subst h
    rfl
  clocks c h := by
    subst h
    rfl
  outlets o h := by
    subst h
    rfl
  inHook b h := by
    subst h
    rfl

variable {f : OnFailure} {w : State} {q : Call} {free depth : Nat} {held : List LoggerId}

theorem submitCall_formats (w : State) (k depth free : Nat) (held : List LoggerId) (q : Call) :
    (w.formats k).submitCall (onFailure depth) free held q =
      (w.submitCall (onFailure depth) free held q).map (·.formats k) := by
  have hR := simulation_formats k
  have h := hR.submitCall (w := w) (hR.onFailure depth) rfl free held q
  generalize w.submitCall (onFailure depth) free held q = x at h ⊢
  generalize (w.formats k).submitCall (onFailure depth) free held q = y at h ⊢
  cases h with
  | some h => exact congrArg some h
  | none => rfl

theorem submitCall_formatted (ha : w.admits q = true) (f : OnFailure) (free : Nat)
    (held : List LoggerId) (s : String) :
    w.submitCall f free held (q.withMessage (.formatted s)) =
      (w.formats 1).submitCall f free held (q.withMessage (.text s)) := by
  have hf : w.admits (q.withMessage (.formatted s)) = true := ha
  have ht : (w.formats 1).admits (q.withMessage (.text s)) = true := ha
  by_cases hl : q.logger ∈ held
  · exact (submitCall_of_mem hf hl).trans (submitCall_of_mem ht hl).symm
  · cases free with
    | zero => exact (submitCall_zero hf).trans (submitCall_zero ht).symm
    | succ free => exact (submitCall_succ hf hl).trans (submitCall_succ ht hl).symm

/-- Whether a message is finished or formatted on the spot shows only in how many were formatted:
one more if the call is accepted, and none otherwise. -/
theorem submitCall_message (w : State) (depth free : Nat) (held : List LoggerId) (q : Call)
    (s : String) :
    w.submitCall (onFailure depth) free held (q.withMessage (.formatted s)) =
      (w.submitCall (onFailure depth) free held (q.withMessage (.text s))).map
        (·.formats (if w.admits q then 1 else 0)) := by
  cases ha : w.admits q with
  | true => rw [submitCall_formatted ha, submitCall_formats, if_pos rfl]
  | false =>
    have hf : w.admits (q.withMessage (.formatted s)) = false := ha
    have ht : w.admits (q.withMessage (.text s)) = false := ha
    rw [submitCall_of_not_admits hf, submitCall_of_not_admits ht]
    rfl

end State

end LineLogger
