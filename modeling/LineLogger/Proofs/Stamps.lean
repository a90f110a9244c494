import LineLogger.Proofs.Calendar
import LineLogger.Proofs.Numerals

namespace LineLogger.Time

namespace Instant

/-- An instant that the default template shows without loss: a leap second comes at the end of a
minute, the offset is less than a day of whole minutes, and the local year has four digits. -/
structure IsRegular (i : Instant) : Prop where
  nanos_lt : i.nanos < 2 * nanosPerSecond
  leap : nanosPerSecond ≤ i.nanos → i.seconds % 60 = 59
  offset_lt : i.offset.natAbs < 86400
  wholeMinutes : i.offset % 60 = 0
  year_nonneg : 0 ≤ i.date.year
  year_le : i.date.year ≤ 9999

def fields (i : Instant) : List Nat :=
  [i.date.year.toNat, i.date.month, i.date.day, i.hour, i.minute, i.second, i.fraction / 1000000]

theorem secondOfDay_lt (i : Instant) : i.secondOfDay < 86400 := by
  rw [secondOfDay]
  omega

theorem isValid_date (i : Instant) : i.date.IsValid := Date.isValid_ofDays _

theorem IsRegular.second_le {i : Instant} (h : i.IsRegular) : i.second ≤ 60 := by
  have hn := h.nanos_lt
  rw [second]
  simp only [nanosPerSecond] at hn ⊢
  omega

end Instant

def stampColumns (sign : Char) : List (Nat × Char) :=
  [(4, '-'), (2, '-'), (2, 'T'), (2, ':'), (2, ':'), (2, '.'), (3, sign)]

def offsetSign (offset : Int) : Char := if offset < 0 then '-' else '+'

def offsetDigits (offset : Int) : List Char :=
  Decimal.places 2 (offset.natAbs / 3600) ++ Decimal.places 2 (offset.natAbs / 60 % 60)

variable {i : Instant}

theorem fits_fields (h : i.IsRegular) (sign : Char) : Fits (stampColumns sign) i.fields := by
  have hv := i.isValid_date
  have hy := h.year_le
  have hm := hv.month_le
  have hd := hv.day_le_thirtyOne
  have hs := i.secondOfDay_lt
  have hl := h.second_le
  have hf : i.fraction < 1000000000 := Nat.mod_lt _ (by decide)
  simp only [Fits, stampColumns, Instant.fields, List.forall₂_cons, List.Forall₂.nil, and_true,
    Instant.hour, Instant.minute]
  omega

theorem items_default : Template.items? ({} : Format).template.toList = some
    (Template.isoDate ++ .literal 'T' :: Template.clockTime ++
      [.literal '.', .fraction 3, .offset .minutes]) := by decide

theorem yearText_zero {y : Int} (h : 0 ≤ y) (h' : y ≤ 9999) :
    yearText .zero y = Decimal.places 4 y.toNat := by
  obtain ⟨n, rfl⟩ := Int.eq_ofNat_of_zero_le h
  rw [yearText, if_pos ⟨h, by omega⟩]
  exact padNumber_zero (by omega)

theorem fractionText_three (i : Instant) :
    fractionText 3 i = Decimal.places 3 (i.fraction / 1000000) := by
  have hf : i.fraction < 10 ^ 9 := Nat.mod_lt _ (by decide)
  rw [fractionText, padNumber_zero hf]
  exact Decimal.take_places 3 6 i.fraction

theorem offsetText_minutes {o : Int} (h : o.natAbs < 86400) (h' : o % 60 = 0) :
    OffsetForm.minutes.text o = offsetSign o :: offsetDigits o := by
  have hm : (o.natAbs + 30) / 60 = o.natAbs / 60 := by omega
  have hh : o.natAbs / 60 / 60 = o.natAbs / 3600 := by omega
  rw [OffsetForm.text, hm, hh, twoPlaces_zero (by omega), twoPlaces_zero (by omega)]
  rfl

theorem renderChars_default (h : i.IsRegular) : ({} : Format).renderChars i =
    columns (stampColumns (offsetSign i.offset)) i.fields ++ offsetDigits i.offset := by
  have hf := fits_fields h '.'
  simp only [Fits, stampColumns, Instant.fields, List.forall₂_cons, List.Forall₂.nil,
    and_true] at hf
  obtain ⟨-, hm, hd, hh, hn, hs, -⟩ := hf
  rw [Format.renderChars, items_default]
  simp [Template.isoDate, Template.clockTime, Template.hourMinute, Template.zeroPadded, Item.text,
    Quantity.text, yearText_zero h.year_nonneg h.year_le, twoPlaces_zero hm, twoPlaces_zero hd,
    twoPlaces_zero hh, twoPlaces_zero hn, twoPlaces_zero hs, fractionText_three,
    offsetText_minutes h.offset_lt h.wholeMinutes, columns, stampColumns, Instant.fields]

structure Stamp where
  date : Date
  hour : Nat
  minute : Nat
  second : Nat
  milli : Nat
  offset : Int
  deriving DecidableEq, Repr

namespace Stamp

def number? (cs : List Char) : Option Nat :=
  if cs.all Char.isDigit then some (Decimal.value cs) else none

def sign? : Char → Option Int
  | '+' => some 1
  | '-' => some (-1)
  | _ => none

/-- Reads the form `YYYY-MM-DDTHH:MM:SS.mmm+HHMM`, whose offset may be negative. -/
def read? : List Char → Option Stamp
  | [y₁, y₂, y₃, y₄, '-', m₁, m₂, '-', d₁, d₂, 'T', h₁, h₂, ':', n₁, n₂, ':', s₁, s₂, '.',
      f₁, f₂, f₃, sign, a₁, a₂, b₁, b₂] => do
    let year ← number? [y₁, y₂, y₃, y₄]
    let month ← number? [m₁, m₂]
    let day ← number? [d₁, d₂]
    let hour ← number? [h₁, h₂]
    let minute ← number? [n₁, n₂]
    let second ← number? [s₁, s₂]
    let milli ← number? [f₁, f₂, f₃]
    let sign ← sign? sign
    let hours ← number? [a₁, a₂]
    let minutes ← number? [b₁, b₂]
    return ⟨⟨year, month, day⟩, hour, minute, second, milli,
      sign * (3600 * hours + 60 * minutes)⟩
  | _ => none

/-- The instant that a stamp shows. Second 60 is second 59 and a whole second more. -/
def instant (t : Stamp) : Instant where
  seconds := 86400 * t.date.civilDays + 3600 * t.hour + 60 * t.minute + min t.second 59 - t.offset
  nanos := 1000000 * (t.milli + if t.second = 60 then 1000 else 0)
  offset := t.offset

structure IsValid (t : Stamp) : Prop where
  date : t.date.IsValid
  hour_lt : t.hour < 24
  minute_lt : t.minute < 60
  second_le : t.second ≤ 60

def ofInstant (i : Instant) : Stamp :=
  ⟨i.date, i.hour, i.minute, i.second, i.fraction / 1000000, i.offset⟩

theorem number?_places {w n : Nat} (h : n < 10 ^ w) :
    number? (Decimal.places w n) = some n := by
  have hd : (Decimal.places w n).all Char.isDigit = true :=
    List.all_eq_true.mpr (fun c hc => Decimal.isDigit_of_mem_places hc)
  rw [number?, if_pos hd, Decimal.value_places h]

theorem sign?_offsetSign (o : Int) : sign? (offsetSign o) = some (if o < 0 then -1 else 1) := by
  rw [offsetSign]
  split <;> rfl

theorem signed_offset (h : i.IsRegular) : (if i.offset < 0 then -1 else 1) *
    (3600 * ((i.offset.natAbs / 3600 : Nat) : Int) + 60 * (i.offset.natAbs / 60 % 60 : Nat)) =
      i.offset := by
  have ho := h.wholeMinutes
  split <;> omega

theorem read?_columns (h : i.IsRegular) :
    read? (columns (stampColumns (offsetSign i.offset)) i.fields ++ offsetDigits i.offset) =
      some (ofInstant i) := by
  have hf := fits_fields h '.'
  simp only [Fits, stampColumns, Instant.fields, List.forall₂_cons, List.Forall₂.nil,
    and_true] at hf
  obtain ⟨hy, hm, hd, hh, hn, hs, hf⟩ := hf
  have ho := h.offset_lt
  change (do
    let year ← number? (Decimal.places 4 i.date.year.toNat)
    let month ← number? (Decimal.places 2 i.date.month)
    let day ← number? (Decimal.places 2 i.date.day)
    let hour ← number? (Decimal.places 2 i.hour)
    let minute ← number? (Decimal.places 2 i.minute)
    let second ← number? (Decimal.places 2 i.second)
    let milli ← number? (Decimal.places 3 (i.fraction / 1000000))
    let sign ← sign? (offsetSign i.offset)
    let hours ← number? (Decimal.places 2 (i.offset.natAbs / 3600))
    let minutes ← number? (Decimal.places 2 (i.offset.natAbs / 60 % 60))
    return (⟨⟨year, month, day⟩, hour, minute, second, milli,
      sign * (3600 * hours + 60 * minutes)⟩ : Stamp)) = _
  rw [number?_places hy, number?_places hm, number?_places hd, number?_places hh,
    number?_places hn, number?_places hs, number?_places hf, sign?_offsetSign,
    number?_places (by omega), number?_places (by omega)]
  simp only [Option.bind_eq_bind, Option.bind_some, Option.pure_def, signed_offset h,
    Int.toNat_of_nonneg h.year_nonneg]
  rfl

theorem isValid_ofInstant (h : i.IsRegular) : (ofInstant i).IsValid where
  date := i.isValid_date
  hour_lt := by
    have hs := i.secondOfDay_lt
    change i.secondOfDay / 3600 < 24
    omega
  minute_lt := Nat.mod_lt _ (by decide)
  second_le := h.second_le

/-- The offset is whole minutes, so a leap second is at the end of a local minute as well. -/
theorem second_of_leap (h : i.IsRegular) (hl : nanosPerSecond ≤ i.nanos) :
    i.secondOfDay % 60 = 59 ∧ i.second = 60 := by
  have hn := h.nanos_lt
  have hs := h.leap hl
  have ho := h.wholeMinutes
  have hd : i.secondOfDay % 60 = 59 := by
    rw [Instant.secondOfDay, Instant.localSeconds]
    omega
  have hq : i.nanos / nanosPerSecond = 1 := by
    simp only [nanosPerSecond] at hn hl ⊢
    omega
  exact ⟨hd, by rw [Instant.second, hd, hq]⟩

theorem second_of_not_leap (hl : i.nanos < nanosPerSecond) :
    i.second = i.secondOfDay % 60 ∧ i.fraction = i.nanos :=
  ⟨by rw [Instant.second, Nat.div_eq_of_lt hl, add_zero], Nat.mod_eq_of_lt hl⟩

theorem nanos_ofInstant (h : i.IsRegular) :
    (ofInstant i).instant.nanos = i.nanos / 1000000 * 1000000 := by
  change 1000000 * (i.fraction / 1000000 + if i.second = 60 then 1000 else 0) = _
  rcases lt_or_ge i.nanos nanosPerSecond with hl | hl
  · obtain ⟨hs, hf⟩ := second_of_not_leap hl
    rw [if_neg (by omega), hf, add_zero, mul_comm]
  · have hn := h.nanos_lt
    have hf : i.fraction = i.nanos - nanosPerSecond := by
      rw [Instant.fraction, Nat.mod_eq_sub_mod hl, Nat.mod_eq_of_lt (by omega)]
    rw [if_pos (second_of_leap h hl).2, hf]
    simp only [nanosPerSecond] at hl ⊢
    omega

theorem seconds_ofInstant (h : i.IsRegular) : (ofInstant i).instant.seconds = i.seconds := by
  have hs : min i.second 59 = i.secondOfDay % 60 := by
    rcases lt_or_ge i.nanos nanosPerSecond with hl | hl
    · have hs := (second_of_not_leap hl).1
      omega
    · obtain ⟨hd, hs⟩ := second_of_leap h hl
      rw [hs, hd]
      rfl
  have hd : 86400 * (i.localSeconds / 86400) + i.secondOfDay = i.seconds + i.offset := by
    rw [Instant.secondOfDay, Instant.localSeconds]
    omega
  change 86400 * i.date.civilDays + 3600 * (i.secondOfDay / 3600 : Nat) +
    60 * (i.secondOfDay / 60 % 60 : Nat) + (min i.second 59 : Nat) - i.offset = i.seconds
  rw [Instant.date, Date.civilDays_ofDays]
  omega

theorem instant_ofInstant (h : i.IsRegular) :
    (ofInstant i).instant = { i with nanos := i.nanos / 1000000 * 1000000 } := by
  have hs := seconds_ofInstant h
  have hn := nanos_ofInstant h
  exact congr_arg₂ (Instant.mk · · i.offset) hs hn

/-- The default time stamp can be read back. -/
theorem default_stamp_reads_back (h : i.IsRegular) :
    ∃ t, read? (({} : Format).render i).toList = some t ∧ t.IsValid ∧
      t.instant = { i with nanos := i.nanos / 1000000 * 1000000 } := by
  refine ⟨ofInstant i, ?_, isValid_ofInstant h, instant_ofInstant h⟩
  rw [Format.render, String.toList_ofList, renderChars_default h]
  exact read?_columns h

def newYear : Instant := ⟨1483228799, 1987654321, 19800⟩

theorem newYear_reads_back : newYear.IsRegular ∧
    ({} : Format).render newYear = "2017-01-01T05:29:60.987+0530" ∧
    ∃ t, read? (({} : Format).render newYear).toList = some t ∧ t.IsValid ∧
      t.instant = { newYear with nanos := 1987000000 } := by
  have h : newYear.IsRegular := by constructor <;> decide
  have hr : ({} : Format).render newYear = "2017-01-01T05:29:60.987+0530" :=
    congrArg String.ofList (renderChars_default h)
  exact ⟨h, hr, default_stamp_reads_back h⟩

end Stamp

end LineLogger.Time
