import LineLogger.Proofs.TextLines
import Mathlib.Data.List.Forall2

namespace LineLogger.Text

/-- A text cut at its line feeds: the segments that one of them ends, and what stands after the last
one. -/
structure Segmented (cs : List Char) (ended : List (List Char)) (last : List Char) : Prop where
  joined : cs = ended.flatMap (· ++ ['\n']) ++ last
  ended : ∀ s ∈ ended, '\n' ∉ s
  last : '\n' ∉ last

/-- A segment, and the same without the carriage return that may stand at its end. -/
def Bared (s l : List Char) : Prop := s = l ++ ['\r'] ∨ s = l ∧ l.getLast? ≠ some '\r'

variable {cs as bs last s : List Char} {ended : List (List Char)}

theorem bared_dropTrailingReturn (s : List Char) : Bared s (dropTrailingReturn s) := by
  rw [dropTrailingReturn]
  split
  · next h =>
    obtain ⟨l, rfl⟩ := List.getLast?_eq_some_iff.mp h
    exact .inl (by rw [List.dropLast_concat])
  · next h => exact .inr ⟨rfl, h⟩

theorem dropTrailingReturn_subset (s : List Char) : dropTrailingReturn s ⊆ s := by
  rw [dropTrailingReturn]
  split
  · exact List.dropLast_subset s
  · exact List.Subset.refl s

theorem segments_of_newline_not_mem (h : '\n' ∉ last) : segments last = [last] := by
  have hs := segments_append h (show segments [] = [[]] from rfl)
  rwa [List.append_nil] at hs

theorem Segmented.segments_eq (h : Segmented cs ended last) : segments cs = ended ++ [last] := by
  obtain ⟨rfl, he, hl⟩ := h
  induction ended with
  | nil => exact segments_of_newline_not_mem hl
  | cons s ended ih =>
    obtain ⟨hs, hn⟩ := List.forall_mem_cons.mp he
    rw [List.flatMap_cons, List.append_assoc, List.append_assoc, List.singleton_append,
      segments_append_newline hs, ih hn, List.cons_append]

theorem exists_segmented (cs : List Char) : ∃ ended last, Segmented cs ended last := by
  induction cs with
  | nil => exact ⟨[], [], rfl, by simp, by simp⟩
  | cons c cs ih =>
    obtain ⟨ended, last, rfl, he, hl⟩ := ih
    by_cases hc : c = '\n'
    · subst hc
      exact ⟨[] :: ended, last, rfl, List.forall_mem_cons.mpr ⟨by simp, he⟩, hl⟩
    · -- The character goes to the front of the first segment, which may be the last one.
      cases ended with
      | nil => exact ⟨[], c :: last, rfl, by simp, by simp [Ne.symm hc, hl]⟩
      | cons s ended =>
        obtain ⟨hs, hn⟩ := List.forall_mem_cons.mp he
        exact ⟨(c :: s) :: ended, last, rfl,
          List.forall_mem_cons.mpr ⟨by simp [Ne.symm hc, hs], hn⟩, hl⟩

theorem Segmented.unique {ended' : List (List Char)} {last' : List Char}
    (h : Segmented cs ended last) (h' : Segmented cs ended' last') :
    ended' = ended ∧ last' = last := by
  have he := h'.segments_eq.symm.trans h.segments_eq
  exact List.append_singleton_inj.mp he

theorem Segmented.lines_eq (h : Segmented cs ended last) :
    lines cs = ended.map dropTrailingReturn ++ if last = [] then [] else [last] := by
  rw [lines, h.segments_eq, linesOfSegments_concat]

theorem Segmented.append {ended' : List (List Char)} {last' : List Char}
    (h : Segmented as ended last) (h' : Segmented bs ended' last') :
    Segmented (as ++ '\n' :: bs) (ended ++ last :: ended') last' where
  joined := by
    rw [h.joined, h'.joined]
    simp
  ended := List.forall_mem_append.mpr ⟨h.ended, List.forall_mem_cons.mpr ⟨h.last, h'.ended⟩⟩
  last := h'.last

theorem lines_append_newline (as bs : List Char) :
    lines (as ++ '\n' :: bs) = lines (as ++ ['\n']) ++ lines bs := by
  obtain ⟨ended, last, ha⟩ := exists_segmented as
  obtain ⟨ended', last', hb⟩ := exists_segmented bs
  rw [(ha.append hb).lines_eq, hb.lines_eq, lines_concat_newline, ha.segments_eq,
    ← List.append_assoc, ← List.map_append, List.append_assoc, List.singleton_append]

theorem newline_not_mem_lines (cs : List Char) : ∀ l ∈ lines cs, '\n' ∉ l := by
  obtain ⟨ended, last, h⟩ := exists_segmented cs
  rw [h.lines_eq]
  refine List.forall_mem_append.mpr ⟨fun l hl => ?_, ?_⟩
  · obtain ⟨s, hs, rfl⟩ := List.mem_map.mp hl
    exact fun hn => h.ended s hs (dropTrailingReturn_subset s hn)
  · split
    · simp
    · exact List.forall_mem_singleton.mpr h.last

/-- There is one way to cut a text at its line feeds. A segment that one ends is a line, without its
carriage return; what stands after the last one is a line unless it is empty. -/
theorem lines_of_segments :
    (∀ cs, ∃ ended last, Segmented cs ended last ∧
      (∀ ended' last', Segmented cs ended' last' → ended' = ended ∧ last' = last) ∧
      ∃ ls, List.Forall₂ Bared ended ls ∧ lines cs = ls ++ if last = [] then [] else [last]) ∧
    (∀ cs, ∀ l ∈ lines cs, '\n' ∉ l) ∧
    (∀ as bs, lines (as ++ '\n' :: bs) = lines (as ++ ['\n']) ++ lines bs) ∧
    ∀ xs : List (List Char), (∀ x ∈ xs, '\n' ∉ x ∧ x.getLast? ≠ some '\r') →
      lines (xs.flatMap (· ++ ['\n'])) = xs := by
  refine ⟨fun cs => ?_, newline_not_mem_lines, lines_append_newline, fun xs h => ?_⟩
  · obtain ⟨ended, last, h⟩ := exists_segmented cs
    refine ⟨ended, last, h, fun _ _ h' => h.unique h', _, ?_, h.lines_eq⟩
    exact List.forall₂_map_right_iff.mpr
      (List.forall₂_same.mpr fun s _ => bared_dropTrailingReturn s)
  · exact lines_flatMap (fun x hx => (h x hx).1) (fun x hx => (h x hx).2)

theorem lines_of_carriage_returns :
    lines ['a', '\r', '\r', '\n', '\n', 'b', '\r'] = [['a', '\r'], [], ['b', '\r']] ∧
      '\n' ∉ ['a', '\r'] ∧
      lines ([['a', '\r', 'b'], []].flatMap (· ++ ['\n'])) = [['a', '\r', 'b'], []] := by
  obtain ⟨-, hn, ha, hf⟩ := lines_of_segments
  have hl := ha ['a', '\r', '\r'] ['\n', 'b', '\r']
  exact ⟨hl, hn ['a', '\r', '\r', '\n'] _ (by decide), hf _ (by decide)⟩

end LineLogger.Text
