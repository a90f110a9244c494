import LineLogger.Json.Printer
import LineLogger.Proofs.Json.Objects
import LineLogger.Proofs.Numerals
import Mathlib.Tactic.SplitIfs

namespace LineLogger.Json

variable {n : Nat} {c : Char} {cs : List Char}

theorem hexValue?_hexDigit (h : n < 16) : hexValue? (hexDigit n) = some n :=
  (by decide : ∀ n < 16, hexValue? (hexDigit n) = some n) n h

theorem hexFour_of_lt (h : n < 256) :
    HexFour n ['0', '0', hexDigit (n / 16), hexDigit (n % 16)] := by
  have h0 : hexValue? '0' = some 0 := rfl
  have hf := HexFour.mk h0 h0 (hexValue?_hexDigit (by omega : n / 16 < 16))
    (hexValue?_hexDigit (Nat.mod_lt n (by omega)))
  rwa [show ((0 * 16 + 0) * 16 + n / 16) * 16 + n % 16 = n by omega] at hf

theorem spelled_escape (c : Char) : Spelled c (escape c) := by
  rw [escape]
  split_ifs with h h h h h h h h
  iterate 7
    subst h
    exact .short rfl
  · have hs := Spelled.code (hexFour_of_lt (by omega : c.toNat < 256)) (.inl (by omega))
    rwa [Char.ofNat_toNat] at hs
  · exact .plain ⟨by omega, by assumption, by assumption⟩

theorem written_escape (s : List Char) : Written s (s.flatMap escape) := by
  induction s with
  | nil => exact .nil
  | cons c s ih => exact .cons (spelled_escape c) ih

theorem Whole.concat (h : Whole cs) (h0 : cs ≠ ['0']) (hc : c.isDigit = true) :
    Whole (cs ++ [c]) := by
  cases h with
  | zero => exact absurd rfl h0
  | digits hd hz hs =>
    refine .digits hd hz fun a ha => ?_
    obtain ha | ha := List.mem_append.mp ha
    · exact hs a ha
    · rwa [List.mem_singleton.mp ha]

theorem digits_ne_zero (h : 0 < n) : Decimal.digits n ≠ ['0'] := by
  intro he
  have hv := Decimal.value_digits n
  rw [he] at hv
  exact absurd hv (Nat.ne_of_lt h)

theorem whole_digits (n : Nat) : Whole (Decimal.digits n) := by
  induction n using Nat.strongRecOn with
  | ind n ih =>
    by_cases h : n < 10
    · by_cases h0 : n = 0
      · subst h0
        rw [Decimal.digits_of_lt h]
        exact .zero
      · have hd := digits_ne_zero (Nat.pos_of_ne_zero h0)
        rw [Decimal.digits_of_lt h] at hd ⊢
        exact .digits (Decimal.isDigit_digitChar h) (fun he => hd (he ▸ rfl)) nofun
    · rw [Decimal.digits_of_le (by omega)]
      exact (ih (n / 10) (by omega)).concat (digits_ne_zero (by omega))
        (Decimal.isDigit_digitChar (by omega))

theorem literal_ofInt (i : Int) : Literal i (Decimal.ofInt i) := by
  rw [Decimal.ofInt]
  split
  · have h := Literal.negative (whole_digits i.natAbs) (digits_ne_zero (by omega))
    rwa [Decimal.value_digits, show -(i.natAbs : Int) = i by omega] at h
  · have h := Literal.natural (whole_digits i.natAbs)
    rwa [Decimal.value_digits, show (i.natAbs : Int) = i by omega] at h

def printedPair (m : String × List Char) : Pair := (m.1.toList.flatMap escape, m.2)

theorem written_printed (key : String) (cs : List Char) :
    Written key.toList (printedPair (key, cs)).1 := written_escape key.toList

theorem keyed_printed (cs : List Char) : Keyed cs ('"' :: cs ++ ['"', ':']) := by
  have h : Keyed cs _ := .mk blanks_nil blanks_nil
  simpa using h

theorem members_printed (ms : List (String × List Char)) :
    Members false (ms.map printedPair)
      (ms.flatMap (fun m => ',' :: printMember m.1 m.2) ++ ['\x7d']) := by
  induction ms with
  | nil => exact .last false blanks_nil
  | cons m ms ih =>
    have h := Members.more (m := printedPair m) blanks_nil (keyed_printed _) blanks_nil ih
    simpa [printMember, printString, printedPair] using h

theorem intercalate_cons (cs : List Char) (css : List (List Char)) :
    List.intercalate [','] (cs :: css) = cs ++ css.flatMap (',' :: ·) := by
  induction css generalizing cs with
  | nil => simp
  | cons ds css ih => rw [List.intercalate_cons_cons, ih]; simp

/-- An object is printed with its members in their order and no blanks. -/
theorem object_printObject {ε : Type} {spells : ε → Pair → Prop} {es : List ε}
    {ms : List (String × List Char)} (h : List.Forall₂ spells es (ms.map printedPair)) :
    Object spells es (printObject ms) := by
  rw [printObject, List.cons_append]
  refine .mk ?_ h
  cases ms with
  | nil => exact .last true blanks_nil
  | cons m ms =>
    have h := Members.first (m := printedPair m) (keyed_printed _) blanks_nil (members_printed ms)
    simp only [List.map_cons, intercalate_cons, List.flatMap_map]
    simpa [printMember, printString, printedPair] using h

end LineLogger.Json
