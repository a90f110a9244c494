import LineLogger.Time.Format
import Mathlib.Algebra.Group.Nat.Defs
import Mathlib.Data.List.Forall2
import Mathlib.Order.Lattice

namespace LineLogger.Decimal

/-- The last `w` digits of a number. -/
def places : Nat → Nat → List Char
  | 0, _ => []
  | w + 1, n => places w (n / 10) ++ [digitChar (n % 10)]

variable {w m n : Nat}

@[simp]
theorem length_places (w n : Nat) : (places w n).length = w := by
  induction w generalizing n with
  | zero => rfl
  | succ w ih => simp [places, ih]

theorem value_places (h : n < 10 ^ w) : value (places w n) = n := by
  induction w generalizing n with
  | zero =>
    obtain rfl : n = 0 := by omega
    rfl
  | succ w ih =>
    rw [Nat.pow_succ] at h
    rw [places, value_append, ih (by omega), digitValue_digitChar (Nat.mod_lt _ (by omega))]
    omega

theorem isDigit_digitChar (h : n < 10) : (digitChar n).isDigit = true :=
  (by decide : ∀ n, n < 10 → (digitChar n).isDigit = true) n h

theorem isDigit_of_mem_places {c : Char} (h : c ∈ places w n) : c.isDigit = true := by
  induction w generalizing n with
  | zero => cases h
  | succ w ih =>
    obtain h | h := List.mem_append.mp h
    · exact ih h
    · rw [List.mem_singleton.mp h]
      exact isDigit_digitChar (Nat.mod_lt _ (by omega))

theorem take_places (v w n : Nat) : (places (v + w) n).take v = places v (n / 10 ^ w) := by
  induction w generalizing n with
  | zero =>
    rw [Nat.pow_zero, Nat.div_one]
    exact List.take_of_length_le (by simp)
  | succ w ih =>
    rw [← Nat.add_assoc, places, List.take_append_of_le_length (by simp), ih,
      Nat.div_div_eq_div_mul, Nat.pow_succ, Nat.mul_comm]

theorem places_zero (w : Nat) : places w 0 = List.replicate w '0' := by
  induction w with
  | zero => rfl
  | succ w ih =>
    rw [places, Nat.zero_div, ih, List.replicate_succ']
    rfl

theorem replicate_append_digits (h : n < 10 ^ (w + 1)) :
    List.replicate (w + 1 - (digits n).length) '0' ++ digits n = places (w + 1) n := by
  induction w generalizing n with
  | zero =>
    have hn : n < 10 := h
    rw [digits_of_lt hn, places, places, Nat.mod_eq_of_lt hn]
    rfl
  | succ w ih =>
    by_cases hn : n < 10
    · rw [digits_of_lt hn, places, Nat.div_eq_of_lt hn, places_zero, Nat.mod_eq_of_lt hn]
      rfl
    · rw [Nat.pow_succ] at h
      have hl : (digits n).length = (digits (n / 10)).length + 1 := by
        rw [digits_of_le (by omega)]
        simp
      rw [hl, Nat.add_sub_add_right, digits_of_le (n := n) (by omega), ← List.append_assoc,
        ih (by omega)]
      rfl

theorem digitChar_lt (h : m < n) (hn : n < 10) : digitChar m < digitChar n :=
  (by decide : ∀ n, n < 10 → ∀ m, m < n → digitChar m < digitChar n) n hn m h

theorem places_append_lt (h : m < n) (hn : n < 10 ^ w) (a b : List Char) :
    places w m ++ a < places w n ++ b := by
  induction w generalizing m n a b with
  | zero => omega
  | succ w ih =>
    rw [Nat.pow_succ] at hn
    rw [places, places, List.append_assoc, List.append_assoc]
    by_cases hd : m / 10 < n / 10
    · exact ih hd (by omega) _ _
    · have he : m / 10 = n / 10 := by omega
      rw [he]
      apply List.append_left_lt
      apply List.cons_lt_cons_iff.mpr
      exact .inl (digitChar_lt (by omega) (Nat.mod_lt _ (by omega)))

end LineLogger.Decimal

namespace LineLogger.Time

theorem twoPlaces_zero {n : Nat} (h : n < 100) : twoPlaces .zero n = Decimal.places 2 n := by
  have hn : n / 10 % 10 = n / 10 := Nat.mod_eq_of_lt (by omega)
  rw [Decimal.places, Decimal.places, Decimal.places, hn, twoPlaces.eq_def]
  dsimp only
  split <;> simp_all

theorem padNumber_zero {w n : Nat} (h : n < 10 ^ (w + 1)) :
    padNumber (w + 1) false .zero n = Decimal.places (w + 1) n := by
  have hn : ¬(n : Int) < 0 := by omega
  rw [← Decimal.replicate_append_digits h]
  simp [padNumber, hn]

/-- Numerals of fixed widths, each with what stands behind it. -/
def columns : List (Nat × Char) → List Nat → List Char
  | (w, c) :: fs, n :: ns => Decimal.places w n ++ c :: columns fs ns
  | _, _ => []

def Fits (fs : List (Nat × Char)) (ns : List Nat) : Prop :=
  List.Forall₂ (fun f n => n < 10 ^ f.1) fs ns

theorem columns_append_lt {fs : List (Nat × Char)} {ms ns : List Nat} (hm : Fits fs ms)
    (hn : Fits fs ns) (h : ms < ns) (a b : List Char) :
    columns fs ms ++ a < columns fs ns ++ b := by
  induction hn generalizing ms with
  | nil =>
    cases hm
    exact absurd h (List.lt_irrefl _)
  | cons hn _ ih =>
    cases hm with
    | cons hm hms =>
      rw [columns, columns, List.append_assoc, List.append_assoc]
      obtain hlt | ⟨rfl, hlt⟩ := List.cons_lt_cons_iff.mp h
      · exact Decimal.places_append_lt hlt hn _ _
      · apply List.append_left_lt
        apply List.cons_lt_cons_iff.mpr
        exact .inr ⟨rfl, ih hms hlt⟩

end LineLogger.Time
