import LineLogger.Proofs.Stamps
import Mathlib

namespace LineLogger

/-- Whether a character parts two lines, or the time stamp of a line from its message. -/
def Text.divides (c : Char) : Bool := c = '\t' || c = '\n'

def Time.Item.divides : Item → Bool
  | .literal c => Text.divides c
  | _ => false

namespace Time

open Text (divides)

/-- No number makes a digit such a character, not even one that is too large for a digit. -/
theorem divides_digitChar (n : Nat) : divides (Decimal.digitChar n) = false := by
  have hn : (Decimal.digitChar n).toNat = if (48 + n).isValidChar then 48 + n else 0 :=
    Char.toNat_ofNat (48 + n)
  have hd : (Decimal.digitChar n).toNat ≠ 9 ∧ (Decimal.digitChar n).toNat ≠ 10 := by
    rw [hn]
    split <;> omega
  simp only [divides, Bool.or_eq_false_iff, decide_eq_false_iff_not]
  exact ⟨fun h => hd.1 (congrArg Char.toNat h), fun h => hd.2 (congrArg Char.toNat h)⟩

theorem divides_digits (n : Nat) : ∀ c ∈ Decimal.digits n, divides c = false := by
  induction n using Nat.strongRecOn with
  | ind n ih =>
    by_cases h : n < 10
    · rw [Decimal.digits_of_lt h]
      exact List.forall_mem_singleton.mpr (divides_digitChar n)
    · rw [Decimal.digits_of_le (by omega)]
      exact List.forall_mem_append.mpr ⟨ih (n / 10) (by omega),
        List.forall_mem_singleton.mpr (divides_digitChar (n % 10))⟩

theorem divides_replicate {c : Char} (h : divides c = false) (n : Nat) :
    ∀ d ∈ List.replicate n c, divides d = false := by
  intro d hd
  rw [List.eq_of_mem_replicate hd]
  exact h

theorem divides_padNumber (w : Nat) (plus : Bool) (p : Padding) (n : Int) :
    ∀ c ∈ padNumber w plus p n, divides c = false := by
  have hs : ∀ c ∈ (if n < 0 then ['-'] else if plus then ['+'] else []), divides c = false := by
    split_ifs <;> simp [divides]
  have hd := divides_digits n.natAbs
  cases p with
  | none => exact List.forall_mem_append.mpr ⟨hs, hd⟩
  | zero =>
    exact List.forall_mem_append.mpr
      ⟨List.forall_mem_append.mpr ⟨hs, divides_replicate (by decide) _⟩, hd⟩
  | space =>
    exact List.forall_mem_append.mpr
      ⟨List.forall_mem_append.mpr ⟨divides_replicate (by decide) _, hs⟩, hd⟩

theorem divides_twoPlaces (p : Padding) (n : Nat) : ∀ c ∈ twoPlaces p n, divides c = false := by
  have ho := divides_digitChar (n % 10)
  rw [twoPlaces.eq_def]
  dsimp only
  split
  · exact List.forall_mem_singleton.mpr ho
  · exact List.forall_mem_cons.mpr ⟨by decide, List.forall_mem_singleton.mpr ho⟩
  · exact List.forall_mem_cons.mpr ⟨divides_digitChar _, List.forall_mem_singleton.mpr ho⟩

theorem divides_yearText (p : Padding) (y : Int) : ∀ c ∈ yearText p y, divides c = false := by
  rw [yearText]
  split
  · exact divides_padNumber 4 false p y
  · exact divides_padNumber 5 true p y

theorem divides_quantity (q : Quantity) (p : Padding) (i : Instant) :
    ∀ c ∈ q.text p i, divides c = false := by
  have hd : ∀ n, ∀ c ∈ [Decimal.digitChar n], divides c = false :=
    fun n => List.forall_mem_singleton.mpr (divides_digitChar n)
  cases q with
  | year => exact divides_yearText p _
  | isoYear => exact divides_yearText p _
  | quarter => exact hd _
  | weekdayFromSunday => exact hd _
  | weekdayFromMonday => exact hd _
  | dayOfYear => exact divides_padNumber 3 false p _
  | nanosecond => exact divides_padNumber 9 false p _
  | unixSeconds => exact divides_padNumber 9 false p _
  | _ => exact divides_twoPlaces p _

theorem divides_offset (form : OffsetForm) (o : Int) : ∀ c ∈ form.text o, divides c = false := by
  have hs : divides (if o < 0 then '-' else '+') = false := by split_ifs <;> decide
  have hc : divides ':' = false := by decide
  have ht := fun n => divides_twoPlaces .zero n
  cases form with
  | minutes =>
    simp only [OffsetForm.text, List.forall_mem_append, List.forall_mem_cons, hs, true_and]
    exact ⟨ht _, ht _⟩
  | minutesColon =>
    simp only [OffsetForm.text, List.forall_mem_append, List.forall_mem_cons, hs, hc, true_and]
    exact ⟨ht _, ht _⟩
  | seconds =>
    simp only [OffsetForm.text, List.forall_mem_append, List.forall_mem_cons, hs, hc, true_and]
    exact ⟨⟨ht _, ht _⟩, ht _⟩
  | hours => exact List.forall_mem_cons.mpr ⟨hs, ht _⟩
  | name =>
    simp only [OffsetForm.text, List.forall_mem_append, List.forall_mem_cons, hs, hc, true_and]
    refine ⟨⟨ht _, ht _⟩, ?_⟩
    split_ifs
    · simp
    · exact List.forall_mem_cons.mpr ⟨hc, ht _⟩

theorem divides_fraction (n : Nat) (i : Instant) : ∀ c ∈ fractionText n i, divides c = false :=
  fun c hc => divides_padNumber 9 false .zero i.fraction c (List.mem_of_mem_take hc)

theorem divides_fractionAsNeeded (i : Instant) :
    ∀ c ∈ fractionAsNeeded i, divides c = false := by
  have hp : divides '.' = false := by decide
  have hf := fun n => divides_fraction n i
  rw [fractionAsNeeded]
  split_ifs
  · simp
  · exact List.forall_mem_cons.mpr ⟨hp, hf 3⟩
  · exact List.forall_mem_cons.mpr ⟨hp, hf 6⟩
  · exact List.forall_mem_cons.mpr ⟨hp, hf 9⟩

theorem divides_weekdayName (n : Nat) : ∀ c ∈ weekdayName n, divides c = false := by
  have h : (weekdayName n).all (!divides ·) = true := by
    rw [weekdayName.eq_def]
    split <;> rfl
  simpa using h

theorem divides_monthName (n : Nat) : ∀ c ∈ monthName n, divides c = false := by
  have h : (monthName n).all (!divides ·) = true := by
    rw [monthName.eq_def]
    split <;> rfl
  simpa using h

theorem divides_item {x : Item} (hx : x.divides = false) (i : Instant) :
    ∀ c ∈ x.text i, divides c = false := by
  cases x with
  | literal c => exact List.forall_mem_singleton.mpr hx
  | number q p => exact divides_quantity q p i
  | weekday long => exact fun c hc => divides_weekdayName _ c (List.mem_of_mem_take hc)
  | month long => exact fun c hc => divides_monthName _ c (List.mem_of_mem_take hc)
  | halfDay upper =>
    cases upper <;>
      · rw [Item.text]
        split_ifs <;> simp [divides]
  | fraction n => exact divides_fraction n i
  | fractionAsNeeded => exact divides_fractionAsNeeded i
  | offset form => exact divides_offset form i.offset

theorem divides_render {f : Format} {xs : List Item}
    (hf : Template.items? f.template.toList = some xs) (hx : ∀ x ∈ xs, x.divides = false)
    (i : Instant) : ∀ c ∈ (f.render i).toList, divides c = false := by
  intro c hc
  rw [Format.render, String.toList_ofList, Format.renderChars, hf] at hc
  obtain ⟨x, hm, hc⟩ := List.mem_flatMap.mp hc
  exact divides_item (hx x hm) i c hc

theorem divides_render_default (i : Instant) :
    ∀ c ∈ (({} : Format).render i).toList, divides c = false :=
  divides_render items_default (by decide) i

end Time

end LineLogger
