import LineLogger.Proofs.Deposits
import LineLogger.Proofs.StampCharacters
import LineLogger.Proofs.TextLines

namespace LineLogger

open Text (divides lines splitOnce?)

namespace Emission

/-- The line feeds within a line. -/
def feeds (x : Emission) : Nat := x.stamp.toList.count '\n' + x.text.toList.count '\n'

/-- Nothing in a line can be taken for the end of its stamp or of the line. -/
structure Readable (x : Emission) : Prop where
  stamp : ∀ c ∈ x.stamp.toList, divides c = false
  newline : '\n' ∉ x.message.toList
  carriage : x.message.toList.getLast? ≠ some '\r'

variable {x : Emission}

theorem toList_content (x : Emission) :
    x.content.toList = x.stamp.toList ++ '\t' :: x.text.toList := by
  simp [content, Layout.content]

theorem bytes_eq (x : Emission) : x.bytes = Text.Utf8.encode (x.content.toList ++ ['\n']) := by
  rw [bytes, Layout.bytes, Text.Utf8.ofString, String.toList_append]
  rfl

theorem count_content (x : Emission) : (x.content.toList ++ ['\n']).count '\n' = x.feeds + 1 := by
  rw [toList_content, List.count_append, List.count_append, List.count_cons_of_ne (by decide)]
  rfl

theorem toList_text (x : Emission) : ∃ cs, x.text.toList = cs ++ x.message.toList ∧ '\n' ∉ cs ∧
    cs.getLast? ≠ some '\r' := by
  obtain ⟨s, label, m⟩ := x
  cases label with
  | none => exact ⟨[], rfl, by simp, by simp⟩
  | some v =>
    refine ⟨(v.abbreviation ++ " ").toList, String.toList_append, ?_, ?_⟩ <;> cases v <;> decide

namespace Readable

theorem tab (h : x.Readable) : '\t' ∉ x.stamp.toList := fun hc => by cases h.stamp _ hc

theorem newline_not_mem (h : x.Readable) : '\n' ∉ x.content.toList := by
  obtain ⟨cs, ht, hn, -⟩ := x.toList_text
  have hs : '\n' ∉ x.stamp.toList := fun hc => by cases h.stamp _ hc
  rw [toList_content, ht]
  simp [hs, hn, h.newline]

theorem getLast?_ne (h : x.Readable) : x.content.toList.getLast? ≠ some '\r' := by
  obtain ⟨cs, ht, -, hr⟩ := x.toList_text
  have hc := h.carriage
  rw [toList_content, ht, List.getLast?_append, List.getLast?_cons, List.getLast?_append]
  cases hm : x.message.toList.getLast? with
  | some c => simpa [hm] using hc
  | none =>
    cases hs : cs.getLast? with
    | some c => simpa [hs] using hr
    | none => simp

theorem split (h : x.Readable) :
    splitOnce? '\t' x.content.toList = some (x.stamp.toList, x.text.toList) := by
  rw [toList_content]
  exact Text.splitOnce?_append h.tab _

end Readable

def chars (xs : List Emission) : List Char := xs.flatMap (fun x => x.content.toList ++ ['\n'])

theorem flatMap_bytes (xs : List Emission) :
    xs.flatMap (·.bytes) = Text.Utf8.encode (chars xs) := by
  simp only [bytes_eq]
  exact List.flatMap_assoc.symm

theorem length_lines (xs : List Emission) :
    (lines (chars xs)).length = xs.length + (xs.map (·.feeds)).sum := by
  have hl : chars xs = [] ∨ (chars xs).getLast? = some '\n' := by
    rcases List.eq_nil_or_concat xs with rfl | ⟨ys, x, rfl⟩
    · exact .inl rfl
    · right
      simp [chars]
  rw [Text.length_lines hl, chars, List.count_flatMap]
  clear hl
  induction xs with
  | nil => rfl
  | cons x xs ih =>
    rw [List.map_cons, List.sum_cons, ih, Function.comp_apply, count_content, List.length_cons,
      List.map_cons, List.sum_cons]
    omega

theorem lines_of_readable {xs : List Emission} (h : ∀ x ∈ xs, x.Readable) :
    lines (chars xs) = xs.map (·.content.toList) := by
  have hc : chars xs = (xs.map (·.content.toList)).flatMap (· ++ ['\n']) := by
    rw [chars, List.flatMap_map]
  rw [hc]
  apply Text.lines_flatMap
  · intro s hs
    obtain ⟨x, hx, rfl⟩ := List.mem_map.mp hs
    exact (h x hx).newline_not_mem
  · intro s hs
    obtain ⟨x, hx, rfl⟩ := List.mem_map.mp hs
    exact (h x hx).getLast?_ne

end Emission

def emissions (i : BufferId) (ms : List Moment) : List Emission := ms.filterMap (·.emission? i)

namespace State

variable {w u : State} {i : BufferId} {ms : List Moment} {xs : List Emission}

theorem emissions_cons (i : BufferId) (m : Moment) (ms : List Moment) :
    emissions i (m :: ms) = (m.emission? i).toList ++ emissions i ms := by
  rw [emissions, List.filterMap_cons]
  cases m.emission? i <;> rfl

theorem foldl_deposits (hm : ∀ m ∈ ms, m.command.intrudes i = false ∧ m.command.clears i = false)
    (b : Bytes) : (ms.filterMap (·.deposit?)).foldl (Entry.applied i) b =
      b ++ (emissions i ms).flatMap (·.bytes) := by
  induction ms generalizing b with
  | nil => simp [emissions]
  | cons m ms ih =>
    obtain ⟨⟨hi, hc⟩, hms⟩ := List.forall_mem_cons.mp hm
    cases hd : m.deposit? with
    | none =>
      have hx : m.emission? i = none := by rw [Moment.emission?, hd, Option.bind_none]
      rw [List.filterMap_cons_none hd, emissions_cons, hx]
      exact ih hms b
    | some e =>
      obtain ⟨hi', hc'⟩ := deposit?_harmless hd i
      have ha : e.applied i b = b ++ (m.emission? i).toList.flatMap (·.bytes) := by
        rw [Entry.applied, hc' hc, Entry.bytes_of_not_intrudes (hi' hi), Moment.emission?, hd]
        rfl
      rw [List.filterMap_cons_some hd, List.foldl_cons, ih hms, ha, List.append_assoc,
        ← List.flatMap_append, ← emissions_cons]

theorem decode_of_fills (h : Fills w u ms) (hb : w.buffers.get i = [])
    (hm : ∀ m ∈ ms, m.command.intrudes i = false ∧ m.command.clears i = false) :
    Text.Utf8.decode (u.buffers.get i) = Emission.chars (emissions i ms) := by
  rw [h i, hb, foldl_deposits hm, List.nil_append, Emission.flatMap_bytes, Text.Utf8.decode_encode]

/-- A buffer that only loggers write to has a line for each of theirs and for every line feed within
one. Where these hold none, each line falls at its first tab into stamp and message. -/
theorem log_reads_back :
    (∀ (w u : State) (ss : List Step) (i : BufferId), w.inHook = false → w.buffers.get i = [] →
      (∀ m ∈ w.moments ss, m.command.intrudes i = false ∧ m.command.clears i = false) →
      w.follow ss = some u →
        let xs := emissions i (w.moments ss)
        let ls := lines (Text.Utf8.decode (u.buffers.get i))
        ls.length = xs.length + (xs.map (·.feeds)).sum ∧
          ((∀ x ∈ xs, x.Readable) → ls = xs.map (·.content.toList) ∧
            ls.map (splitOnce? '\t') = xs.map (fun x => some (x.stamp.toList, x.text.toList)))) ∧
    ∀ now : Time.Instant, ∀ c ∈ (({} : Time.Format).render now).toList, divides c = false := by
  refine ⟨fun w u ss i hw hb hm hu => ?_, Time.divides_render_default⟩
  intro xs ls
  have hl : ls = lines (Emission.chars xs) :=
    congrArg lines (decode_of_fills ((tracks_fills.follow hw ss).2 u hu) hb hm)
  rw [hl]
  refine ⟨Emission.length_lines xs, fun hr => ?_⟩
  have hc := Emission.lines_of_readable hr
  refine ⟨hc, ?_⟩
  rw [hc, List.map_map]
  exact List.map_congr_left fun x hx => (hr x hx).split

def tabbed : List Step :=
  [.command (.set 0 (.sink (.outlet (.buffer 0)))), .command (.info 0 "a\tb"),
    .command (.trace 0 "too fine"), .command (.writeOnce (.writer ⟨0, .warn⟩) [])]

theorem tabbed_reads_back : ∃ u, (initial (.fixed ⟨0, 0, 0⟩)).follow tabbed = some u ∧
    (lines (Text.Utf8.decode (u.buffers.get 0))).map (splitOnce? '\t') =
      [some ("1970-01-01T00:00:00.000+0000".toList, "INF a\tb".toList),
        some ("1970-01-01T00:00:00.000+0000".toList, [])] := by
  have hm : ∀ m ∈ (initial (.fixed ⟨0, 0, 0⟩)).moments tabbed,
      m.command.intrudes 0 = false ∧ m.command.clears 0 = false := by decide
  have hx : emissions 0 ((initial (.fixed ⟨0, 0, 0⟩)).moments tabbed) =
      [⟨({} : Time.Format).render ⟨0, 0, 0⟩, some .info, "a\tb"⟩,
        ⟨({} : Time.Format).render ⟨0, 0, 0⟩, none, ""⟩] := rfl
  obtain ⟨u, hu⟩ : ∃ u, (initial (.fixed ⟨0, 0, 0⟩)).follow tabbed = some u :=
    Option.isSome_iff_exists.mp (by decide)
  obtain ⟨-, hr⟩ := log_reads_back.1 _ u tabbed 0 rfl rfl hm hu
  rw [hx] at hr
  have hd := log_reads_back.2 ⟨0, 0, 0⟩
  have ha := hr (List.forall_mem_cons.mpr ⟨⟨hd, by decide, by decide⟩,
    List.forall_mem_singleton.mpr ⟨hd, by decide, by decide⟩⟩)
  exact ⟨u, hu, ha.2.trans (by cbv)⟩

end State

end LineLogger
