import LineLogger.Proofs.Stamps
import Mathlib.Data.String.Basic

namespace LineLogger.Time

namespace Instant

/-- Compares what default time stamps show of two instants: seconds, and then milliseconds. -/
def compareMillis (a b : Instant) : Ordering :=
  (compare a.seconds b.seconds).then (compare (a.nanos / 1000000) (b.nanos / 1000000))

def Earlier (a b : Instant) : Prop :=
  a.seconds < b.seconds ∨ a.seconds = b.seconds ∧ a.nanos / 1000000 < b.nanos / 1000000

def SameMilli (a b : Instant) : Prop :=
  a.seconds = b.seconds ∧ a.nanos / 1000000 = b.nanos / 1000000

/-- As clocks read that do not go back. -/
def NotAfter (a b : Instant) : Prop :=
  a.seconds < b.seconds ∨ a.seconds = b.seconds ∧ a.nanos ≤ b.nanos

variable {a b : Instant}

theorem NotAfter.earlier_or_same (h : a.NotAfter b) : a.Earlier b ∨ a.SameMilli b := by
  simp only [NotAfter, Earlier, SameMilli] at *
  omega

theorem Earlier.not_same (h : a.Earlier b) : ¬a.SameMilli b := by
  simp only [Earlier, SameMilli] at *
  omega

theorem trichotomy (a b : Instant) : a.Earlier b ∨ a.SameMilli b ∨ b.Earlier a := by
  simp only [Earlier, SameMilli]
  omega

theorem compareMillis_of_earlier (h : a.Earlier b) : a.compareMillis b = .lt := by
  rw [compareMillis]
  obtain h | ⟨hs, h⟩ := h
  · rw [compare_lt_iff_lt.mpr h]
    rfl
  · rw [compare_eq_iff_eq.mpr hs]
    exact compare_lt_iff_lt.mpr h

theorem compareMillis_of_later (h : b.Earlier a) : a.compareMillis b = .gt := by
  rw [compareMillis]
  obtain h | ⟨hs, h⟩ := h
  · rw [compare_gt_iff_gt.mpr h]
    rfl
  · rw [compare_eq_iff_eq.mpr hs.symm]
    exact compare_gt_iff_gt.mpr h

theorem compareMillis_of_same (h : a.SameMilli b) : a.compareMillis b = .eq := by
  rw [compareMillis, compare_eq_iff_eq.mpr h.1, compare_eq_iff_eq.mpr h.2]
  rfl

theorem day_or_clock (h : a.Earlier b) (ho : a.offset = b.offset) :
    a.localSeconds / 86400 < b.localSeconds / 86400 ∨
      a.localSeconds / 86400 = b.localSeconds / 86400 ∧ (a.secondOfDay < b.secondOfDay ∨
        a.secondOfDay = b.secondOfDay ∧ a.nanos / 1000000 < b.nanos / 1000000) := by
  simp only [Earlier, secondOfDay, localSeconds] at *
  omega

/-- A later time of the same day sorts behind an earlier one. A leap second is the last one of its
minute, so its number 60 is never too high. -/
theorem clock_lt (ha : a.IsRegular) (hb : b.IsRegular) (h : a.secondOfDay < b.secondOfDay ∨
      a.secondOfDay = b.secondOfDay ∧ a.nanos / 1000000 < b.nanos / 1000000) :
    [a.hour, a.minute, a.second, a.fraction / 1000000] <
      [b.hour, b.minute, b.second, b.fraction / 1000000] := by
  have hna := ha.nanos_lt
  have hnb := hb.nanos_lt
  have hla : nanosPerSecond ≤ a.nanos → a.secondOfDay % 60 = 59 := fun hl =>
    (Stamp.second_of_leap ha hl).1
  simp only [List.cons_lt_cons_iff, List.lt_irrefl, and_false, or_false, hour, minute, second,
    fraction, nanosPerSecond] at *
  generalize a.secondOfDay = x at *
  generalize b.secondOfDay = y at *
  obtain h | ⟨rfl, h⟩ := h
  · omega
  · omega

theorem fields_lt (ha : a.IsRegular) (hb : b.IsRegular) (h : a.Earlier b)
    (ho : a.offset = b.offset) : a.fields < b.fields := by
  rw [fields, fields]
  obtain hd | ⟨hd, hc⟩ := day_or_clock h ho
  · have hy := ha.year_nonneg
    have hb : a.date.Before b.date := Date.before_ofDays hd
    simp only [List.cons_lt_cons_iff, Date.Before] at hb ⊢
    omega
  · have hdate : a.date = b.date := congrArg Date.ofDays hd
    have ht := clock_lt ha hb hc
    rw [hdate]
    change [b.date.year.toNat, b.date.month, b.date.day] ++ _ < [_, _, _] ++ _
    exact List.append_left_lt ht

theorem fields_eq (h : a.SameMilli b) (ho : a.offset = b.offset) : a.fields = b.fields := by
  have hl : a.localSeconds = b.localSeconds := congrArg₂ (· + ·) h.1 ho
  have hn := h.2
  have hq : a.nanos / nanosPerSecond = b.nanos / nanosPerSecond := by
    rw [nanosPerSecond]
    omega
  have hf : a.fraction / 1000000 = b.fraction / 1000000 := by
    rw [fraction, fraction, nanosPerSecond]
    omega
  simp only [fields, date, hour, minute, second, secondOfDay, hl, hq, hf]

end Instant

variable {a b : Instant}

theorem render_lt (ha : a.IsRegular) (hb : b.IsRegular) (ho : a.offset = b.offset)
    (h : a.Earlier b) : ({} : Format).render a < ({} : Format).render b := by
  have hf := Instant.fields_lt ha hb h ho
  rw [String.lt_iff_toList_lt, Format.render, Format.render, String.toList_ofList,
    String.toList_ofList, renderChars_default ha, renderChars_default hb, ← ho]
  exact columns_append_lt (fits_fields ha _) (fits_fields hb _) hf _ _

theorem render_eq (ha : a.IsRegular) (hb : b.IsRegular) (ho : a.offset = b.offset)
    (h : a.SameMilli b) : ({} : Format).render a = ({} : Format).render b := by
  rw [Format.render, Format.render, renderChars_default ha, renderChars_default hb, ← ho,
    Instant.fields_eq h ho]

theorem compare_render (ha : a.IsRegular) (hb : b.IsRegular) (ho : a.offset = b.offset) :
    compare (({} : Format).render a) (({} : Format).render b) = a.compareMillis b := by
  obtain h | h | h := a.trichotomy b
  · rw [Instant.compareMillis_of_earlier h]
    exact compare_lt_iff_lt.mpr (render_lt ha hb ho h)
  · rw [Instant.compareMillis_of_same h]
    exact compare_eq_iff_eq.mpr (render_eq ha hb ho h)
  · rw [Instant.compareMillis_of_later h]
    exact compare_gt_iff_gt.mpr (render_lt hb ha ho.symm h)

theorem render_le (ha : a.IsRegular) (hb : b.IsRegular) (ho : a.offset = b.offset)
    (h : a.NotAfter b) : ({} : Format).render a ≤ ({} : Format).render b ∧
      (({} : Format).render a = ({} : Format).render b ↔ a.SameMilli b) := by
  obtain h | h := h.earlier_or_same
  · have hl := render_lt ha hb ho h
    exact ⟨hl.le, iff_of_false hl.ne h.not_same⟩
  · have he := render_eq ha hb ho h
    exact ⟨he.le, iff_of_true he h⟩

end LineLogger.Time
