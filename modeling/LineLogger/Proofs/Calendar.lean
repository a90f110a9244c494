import LineLogger.Time.Calendar
import Mathlib.Order.SuccPred.Archimedean
import Mathlib.Tactic.IntervalCases
import Mathlib.Tactic.Ring

namespace LineLogger.Time.Date

def daysInMonth (y : Int) (m : Nat) : Nat :=
  if m = 2 then (if isLeapYear y then 29 else 28)
  else if m = 4 ∨ m = 6 ∨ m = 9 ∨ m = 11 then 30 else 31

structure IsValid (d : Date) : Prop where
  one_le_month : 1 ≤ d.month
  month_le : d.month ≤ 12
  one_le_day : 1 ≤ d.day
  day_le : d.day ≤ daysInMonth d.year d.month

theorem IsValid.day_le_thirtyOne {d : Date} (h : d.IsValid) : d.day ≤ 31 := by
  have hd := h.day_le
  simp only [daysInMonth] at hd
  split_ifs at hd <;> omega

def daysBefore (y : Int) (m : Nat) : Nat :=
  ((List.range (m - 1)).map (fun k => daysInMonth y (k + 1))).sum

/-- The leap days from year 1 up to the end of a year. -/
def leapDays (y : Int) : Int := y / 4 - y / 100 + y / 400

/-- The number of days since 1970-01-01, counted by whole years, whole months and days. -/
def civilDays (d : Date) : Int :=
  365 * (d.year - 1970) + (leapDays (d.year - 1) - leapDays 1969) + daysBefore d.year d.month +
    (d.day - 1)

theorem isLeapYear_iff (y : Int) :
    isLeapYear y = true ↔ y % 4 = 0 ∧ (y % 100 ≠ 0 ∨ y % 400 = 0) := by
  simp [isLeapYear]

theorem leapDays_sub (y : Int) :
    leapDays y - leapDays (y - 1) = if isLeapYear y then 1 else 0 := by
  have h₄ : y / 4 - (y - 1) / 4 = if y % 4 = 0 then 1 else 0 := by split <;> omega
  have h₁ : y / 100 - (y - 1) / 100 = if y % 100 = 0 then 1 else 0 := by split <;> omega
  have h₀ : y / 400 - (y - 1) / 400 = if y % 400 = 0 then 1 else 0 := by split <;> omega
  have he : leapDays y - leapDays (y - 1) = (if y % 4 = 0 then 1 else 0) -
      (if y % 100 = 0 then 1 else 0) + if y % 400 = 0 then 1 else 0 := by
    rw [← h₄, ← h₁, ← h₀, leapDays, leapDays]
    ring
  rw [he]
  simp only [isLeapYear_iff]
  split_ifs <;> omega

/-- A day of the cycle of 400 years by its century, the four years in it, the year and the day. The
leap day comes last in a year that begins in March. -/
theorem exists_partsOfCycle {c : Nat} (h : c < 146097) :
    ∃ q f s r, q ≤ 3 ∧ f ≤ 24 ∧ s ≤ 3 ∧ r ≤ 365 ∧ (r = 365 → s = 3 ∧ (f = 24 → q = 3)) ∧
      c = 36524 * q + 1461 * f + 365 * s + r := by
  refine ⟨min (c / 36524) 3, (c - 36524 * min (c / 36524) 3) / 1461,
    min ((c - 36524 * min (c / 36524) 3) % 1461 / 365) 3, _, ?_, ?_, ?_, ?_, ?_,
    (Nat.add_sub_of_le ?_).symm⟩ <;> omega

theorem daysBeforeYear_parts {q f s : Nat} (hf : f ≤ 24) (hs : s ≤ 3) :
    daysBeforeYear (100 * q + 4 * f + s) = 36524 * q + 1461 * f + 365 * s := by
  simp only [daysBeforeYear]
  omega

theorem yearOfCycle_parts {q f s r : Nat} (hq : q ≤ 3) (hf : f ≤ 24) (hs : s ≤ 3) (hr : r ≤ 365)
    (hl : r = 365 → s = 3 ∧ (f = 24 → q = 3)) :
    let c := 36524 * q + 1461 * f + 365 * s + r
    (c - c / 1460 + c / 36524 - c / 146096) / 365 = 100 * q + 4 * f + s := by
  intro c
  have h₁ : c / 36524 = q + c / 146096 := by
    obtain rfl | rfl | rfl | rfl : q = 0 ∨ q = 1 ∨ q = 2 ∨ q = 3 := by omega
    all_goals omega
  have h₂ : c / 1460 = 25 * q + f + (24 * q + f + 365 * s + r) / 1460 := by omega
  have h₃ : (24 * q + f + 365 * s + r) / 1460 ≤ 1 := by omega
  have h₄ : 1 ≤ (24 * q + f + 365 * s + r) / 1460 → s = 3 ∧ 1 ≤ r := by omega
  omega

theorem ofDays_parts {e : Int} {q f s r : Nat} (hq : q ≤ 3) (hf : f ≤ 24) (hs : s ≤ 3)
    (hr : r ≤ 365) (hl : r = 365 → s = 3 ∧ (f = 24 → q = 3)) :
    ofDays (146097 * e + (36524 * q + 1461 * f + 365 * s + r) - epoch) =
      let m := (5 * r + 2) / 153
      let month := if m < 10 then m + 3 else m - 9
      ⟨400 * e + (100 * q + 4 * f + s) + if month ≤ 2 then 1 else 0, month,
        r - daysBeforeMonth m + 1⟩ := by
  have hc : ((146097 * e + (36524 * q + 1461 * f + 365 * s + r) - epoch + epoch) % 146097).toNat =
      36524 * q + 1461 * f + 365 * s + r := by omega
  have he : (146097 * e + (36524 * q + 1461 * f + 365 * s + r) - epoch + epoch) / 146097 = e := by
    omega
  have hy := yearOfCycle_parts hq hf hs hr hl
  dsimp only at hy
  rw [ofDays, hc, he]
  simp only [hy, daysBeforeYear_parts hf hs, Nat.add_sub_cancel_left]
  push_cast
  rw [mul_comm e]

theorem exists_parts (n : Int) : ∃ (e : Int) (q f s r : Nat), q ≤ 3 ∧ f ≤ 24 ∧ s ≤ 3 ∧ r ≤ 365 ∧
    (r = 365 → s = 3 ∧ (f = 24 → q = 3)) ∧
      n = 146097 * e + (36524 * q + 1461 * f + 365 * s + r) - epoch := by
  obtain ⟨q, f, s, r, hq, hf, hs, hr, hl, hc⟩ :=
    exists_partsOfCycle (c := ((n + epoch) % 146097).toNat) (by omega)
  exact ⟨(n + epoch) / 146097, q, f, s, r, hq, hf, hs, hr, hl, by omega⟩

theorem daysInMonth_fromMarch {m : Nat} (h : m < 11) (y : Int) :
    daysInMonth y (if m < 10 then m + 3 else m - 9) =
      daysBeforeMonth (m + 1) - daysBeforeMonth m := by
  interval_cases m <;> rfl

theorem day_le_daysInMonth {e : Int} {q f s r : Nat} (hf : f ≤ 24) (hr : r ≤ 365)
    (hl : r = 365 → s = 3 ∧ (f = 24 → q = 3)) :
    let m := (5 * r + 2) / 153
    let month := if m < 10 then m + 3 else m - 9
    r - daysBeforeMonth m + 1 ≤
      daysInMonth (400 * e + (100 * q + 4 * f + s) + if month ≤ 2 then 1 else 0) month := by
  intro m month
  by_cases hm : m < 11
  · have hd : m = (5 * r + 2) / 153 := rfl
    rw [daysInMonth_fromMarch hm]
    simp only [daysBeforeMonth]
    omega
  · -- Only here the leap day counts.
    have hm : m = 11 := by omega
    have hb : daysBeforeMonth 11 = 337 := rfl
    have hr : r = 365 → isLeapYear (400 * e + (100 * q + 4 * f + s) + 1) = true := by
      intro h
      obtain ⟨rfl, hq⟩ := hl h
      rw [isLeapYear_iff]
      by_cases h₂₄ : f = 24
      · obtain rfl := hq h₂₄
        omega
      · omega
    simp only [month, hm, hb, daysInMonth, Nat.reduceLT, Nat.reduceSub, Nat.reduceLeDiff, if_false,
      if_true]
    split
    · omega
    · next h =>
      have : r ≠ 365 := fun he => h (hr he)
      omega

theorem isValid_ofDays (n : Int) : (ofDays n).IsValid := by
  obtain ⟨e, q, f, s, r, hq, hf, hs, hr, hl, rfl⟩ := exists_parts n
  rw [ofDays_parts hq hf hs hr hl]
  refine ⟨?_, ?_, Nat.le_add_left _ _, day_le_daysInMonth hf hr hl⟩
  · dsimp only
    split <;> omega
  · dsimp only
    split <;> omega

theorem toDays_ofDays (n : Int) : (ofDays n).toDays = n := by
  obtain ⟨e, q, f, s, r, hq, hf, hs, hr, hl, rfl⟩ := exists_parts n
  rw [ofDays_parts hq hf hs hr hl]
  have hm : (5 * r + 2) / 153 ≤ 11 := by omega
  have hb : daysBeforeMonth ((5 * r + 2) / 153) ≤ r := by
    simp only [daysBeforeMonth]
    omega
  have hy := daysBeforeYear_parts (q := q) hf hs
  generalize (5 * r + 2) / 153 = m at hm hb ⊢
  have hmonth : (if (if m < 10 then m + 3 else m - 9) ≤ 2
      then (if m < 10 then m + 3 else m - 9) + 9
      else (if m < 10 then m + 3 else m - 9) - 3) = m := by
    split_ifs <;> omega
  have hyear : (if (if m < 10 then m + 3 else m - 9) ≤ 2
      then 400 * e + (100 * q + 4 * f + s) +
        (if (if m < 10 then m + 3 else m - 9) ≤ 2 then 1 else 0) - 1
      else 400 * e + (100 * q + 4 * f + s) +
        (if (if m < 10 then m + 3 else m - 9) ≤ 2 then 1 else 0)) =
          400 * e + (100 * q + 4 * f + s : Nat) := by
    split_ifs <;> omega
  have hc : ((400 * e + (100 * q + 4 * f + s : Nat)) % 400).toNat = 100 * q + 4 * f + s := by omega
  simp only [toDays, hmonth, hyear, hc, hy]
  omega

theorem cycles_eq (y : Int) :
    y / 400 * 146097 + daysBeforeYear (y % 400).toNat = 365 * y + leapDays y := by
  simp only [daysBeforeYear, leapDays]
  omega

theorem daysBefore_of_le {m : Nat} (h : 1 ≤ m) (h' : m ≤ 2) (y : Int) :
    daysBeforeMonth (m + 9) = 306 + daysBefore y m := by
  interval_cases m <;> rfl

theorem daysBefore_of_gt {m : Nat} (h : 2 < m) (h' : m ≤ 12) (y : Int) :
    daysBefore y m = daysBeforeMonth (m - 3) + 59 + if isLeapYear y then 1 else 0 := by
  interval_cases m <;> cases hy : isLeapYear y <;>
    simp [daysBefore, List.range_succ, daysInMonth, daysBeforeMonth, hy]

theorem toDays_eq_civilDays {d : Date} (h : d.IsValid) : d.toDays = d.civilDays := by
  have hd := h.one_le_day
  have hl := leapDays_sub d.year
  have h₀ : leapDays 1969 = 477 := rfl
  rw [toDays, civilDays, h₀]
  by_cases hm : d.month ≤ 2
  · have hb := daysBefore_of_le h.one_le_month hm d.year
    have hc := cycles_eq (d.year - 1)
    rw [if_pos hm, if_pos hm, hb, epoch]
    omega
  · have hb := daysBefore_of_gt (Nat.lt_of_not_le hm) h.month_le d.year
    have hc := cycles_eq d.year
    rw [if_neg hm, if_neg hm, epoch]
    cases hy : isLeapYear d.year <;> simp only [hy, if_true, Bool.false_eq_true, if_false] at hl hb
    · omega
    · omega

def firstDay (y : Int) : Int := 365 * (y - 1970) + (leapDays (y - 1) - leapDays 1969)

theorem civilDays_eq (d : Date) :
    d.civilDays = firstDay d.year + daysBefore d.year d.month + (d.day - 1) := rfl

theorem daysBefore_succ {m : Nat} (h : 1 ≤ m) (y : Int) :
    daysBefore y (m + 1) = daysBefore y m + daysInMonth y m := by
  obtain ⟨k, rfl⟩ := Nat.exists_eq_add_of_le' h
  simp [daysBefore, List.range_succ]

theorem daysBefore_mono (y : Int) {m k : Nat} (h : m ≤ k) : daysBefore y m ≤ daysBefore y k := by
  induction k, h using Nat.le_induction with
  | base => exact Nat.le_refl _
  | succ k hk ih =>
    obtain rfl | hk := Nat.eq_zero_or_pos k
    · exact ih
    · rw [daysBefore_succ hk]
      exact Nat.le_add_right_of_le ih

theorem daysBefore_year (y : Int) : daysBefore y 13 = 365 + if isLeapYear y then 1 else 0 := by
  have hb := daysBefore_of_gt (m := 12) (by omega) (by omega) y
  have hm : daysBeforeMonth (12 - 3) = 275 := rfl
  have hd : daysInMonth y 12 = 31 := rfl
  rw [daysBefore_succ (by omega), hb, hm, hd]
  omega

theorem firstDay_succ (y : Int) : firstDay (y + 1) = firstDay y + daysBefore y 13 := by
  have hl := leapDays_sub y
  rw [firstDay, firstDay, daysBefore_year, Int.add_sub_cancel]
  cases hy : isLeapYear y <;> simp only [hy, if_true, Bool.false_eq_true, if_false] at hl ⊢
  · omega
  · omega

theorem firstDay_mono {y z : Int} (h : y ≤ z) : firstDay y ≤ firstDay z := by
  refine monotone_int_of_le_succ (fun x => ?_) h
  rw [firstDay_succ]
  omega

theorem IsValid.le_daysBefore {d : Date} (h : d.IsValid) :
    daysBefore d.year d.month + d.day ≤ daysBefore d.year (d.month + 1) := by
  rw [daysBefore_succ h.one_le_month]
  exact Nat.add_le_add_left h.day_le _

def Before (d d' : Date) : Prop :=
  d.year < d'.year ∨
    d.year = d'.year ∧ (d.month < d'.month ∨ d.month = d'.month ∧ d.day < d'.day)

theorem Before.civilDays_lt {d d' : Date} (hb : Before d d') (h : d.IsValid) (h' : d'.IsValid) :
    d.civilDays < d'.civilDays := by
  have hd := h.le_daysBefore
  have hd' := h'.one_le_day
  rw [civilDays_eq, civilDays_eq]
  obtain hy | ⟨hy, hm | ⟨hm, hk⟩⟩ := hb
  · have hm : _ ≤ daysBefore d.year 13 :=
      daysBefore_mono d.year (Nat.add_le_add_right h.month_le 1)
    have hf := firstDay_mono (Int.add_one_le_of_lt hy)
    rw [firstDay_succ] at hf
    omega
  · have hm : daysBefore d.year (d.month + 1) ≤ _ := daysBefore_mono d.year hm
    rw [← hy]
    omega
  · rw [← hy, ← hm]
    omega

theorem civilDays_ofDays (n : Int) : (ofDays n).civilDays = n :=
  (toDays_eq_civilDays (isValid_ofDays n)).symm.trans (toDays_ofDays n)

theorem before_ofDays {m n : Int} (h : m < n) : Before (ofDays m) (ofDays n) := by
  by_contra hb
  have hle : ofDays n = ofDays m ∨ Before (ofDays n) (ofDays m) := by
    rw [Before] at hb ⊢
    rw [Date.mk.injEq]
    omega
  obtain he | hb := hle
  · have := congrArg civilDays he
    rw [civilDays_ofDays, civilDays_ofDays] at this
    omega
  · have := hb.civilDays_lt (isValid_ofDays n) (isValid_ofDays m)
    rw [civilDays_ofDays, civilDays_ofDays] at this
    omega

end LineLogger.Time.Date
