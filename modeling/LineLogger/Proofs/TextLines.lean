import LineLogger.Proofs.Utf8
import LineLogger.Text.Lines
import Mathlib.Data.List.Basic

namespace LineLogger.Text

def splitOnce? (c : Char) : List Char → Option (List Char × List Char)
  | [] => none
  | d :: cs => if d = c then some ([], cs) else (splitOnce? c cs).map (fun p => (d :: p.1, p.2))

theorem splitOnce?_append {c : Char} {cs : List Char} (h : c ∉ cs) (ds : List Char) :
    splitOnce? c (cs ++ c :: ds) = some (cs, ds) := by
  induction cs with
  | nil => rw [List.nil_append, splitOnce?, if_pos rfl]
  | cons d cs ih =>
    obtain ⟨hd, hc⟩ := List.ne_and_not_mem_of_not_mem_cons h
    rw [List.cons_append, splitOnce?, if_neg (Ne.symm hd), ih hc]
    rfl

variable {c : Char} {cs ds s : List Char} {ss : List (List Char)}

theorem segments_newline (cs : List Char) : segments ('\n' :: cs) = [] :: segments cs := rfl

theorem segments_cons (h : c ≠ '\n') (hs : segments cs = s :: ss) :
    segments (c :: cs) = (c :: s) :: ss := by
  rw [segments, if_neg h, hs]

theorem segments_append (h : '\n' ∉ cs) (hs : segments ds = s :: ss) :
    segments (cs ++ ds) = (cs ++ s) :: ss := by
  induction cs with
  | nil => exact hs
  | cons c cs ih =>
    obtain ⟨hc, hn⟩ := List.ne_and_not_mem_of_not_mem_cons h
    exact segments_cons (Ne.symm hc) (ih hn)

theorem segments_append_newline (h : '\n' ∉ cs) (ds : List Char) :
    segments (cs ++ '\n' :: ds) = cs :: segments ds := by
  rw [segments_append h (segments_newline ds), List.append_nil]

theorem segments_flatMap {xs : List (List Char)} (h : ∀ x ∈ xs, '\n' ∉ x) :
    segments (xs.flatMap (· ++ ['\n'])) = xs ++ [[]] := by
  induction xs with
  | nil => rfl
  | cons x xs ih =>
    obtain ⟨hx, hxs⟩ := List.forall_mem_cons.mp h
    rw [List.flatMap_cons, List.append_assoc, List.singleton_append, segments_append_newline hx,
      ih hxs]
    rfl

theorem length_segments (cs : List Char) : (segments cs).length = cs.count '\n' + 1 := by
  induction cs with
  | nil => rfl
  | cons c cs ih =>
    by_cases h : c = '\n'
    · subst h
      rw [segments_newline, List.length_cons, ih, List.count_cons_self]
    · obtain ⟨s, ss, hs⟩ := List.exists_cons_of_ne_nil (segments_ne_nil cs)
      rw [segments_cons h hs, List.count_cons_of_ne h, ← ih, hs]
      rfl

theorem segments_concat_newline (cs : List Char) :
    segments (cs ++ ['\n']) = segments cs ++ [[]] := by
  induction cs with
  | nil => rfl
  | cons c cs ih =>
    by_cases h : c = '\n'
    · subst h
      rw [List.cons_append, segments_newline, segments_newline, ih]
      rfl
    · obtain ⟨s, ss, hs⟩ := List.exists_cons_of_ne_nil (segments_ne_nil cs)
      rw [segments_cons h hs]
      rw [hs] at ih
      exact segments_cons h ih

theorem linesOfSegments_concat (ss : List (List Char)) (s : List Char) :
    linesOfSegments (ss ++ [s]) =
      ss.map dropTrailingReturn ++ if s = [] then [] else [s] := by
  induction ss with
  | nil => cases s <;> rfl
  | cons t ss ih =>
    rw [List.map_cons, List.cons_append, List.cons_append, ← ih]
    cases ss <;> rfl

theorem linesOfSegments_concat_nil (ss : List (List Char)) :
    linesOfSegments (ss ++ [[]]) = ss.map dropTrailingReturn := by
  rw [linesOfSegments_concat, if_pos rfl, List.append_nil]

theorem lines_concat_newline (cs : List Char) :
    lines (cs ++ ['\n']) = (segments cs).map dropTrailingReturn := by
  rw [lines, segments_concat_newline, linesOfSegments_concat_nil]

theorem length_lines (h : cs = [] ∨ cs.getLast? = some '\n') :
    (lines cs).length = cs.count '\n' := by
  rcases h with rfl | h
  · rfl
  · obtain ⟨ds, rfl⟩ := List.getLast?_eq_some_iff.mp h
    rw [lines_concat_newline, List.length_map, length_segments, List.count_append]
    rfl

theorem dropTrailingReturn_of_ne (h : s.getLast? ≠ some '\r') : dropTrailingReturn s = s :=
  if_neg h

/-- Texts without line feeds, none with a carriage return at its end, are read back as they were
when each is ended by a line feed. -/
theorem lines_flatMap {xs : List (List Char)} (hn : ∀ x ∈ xs, '\n' ∉ x)
    (hr : ∀ x ∈ xs, x.getLast? ≠ some '\r') : lines (xs.flatMap (· ++ ['\n'])) = xs := by
  rw [lines, segments_flatMap hn, linesOfSegments_concat_nil]
  exact (List.map_congr_left fun x hx => dropTrailingReturn_of_ne (hr x hx)).trans (List.map_id xs)

end LineLogger.Text
