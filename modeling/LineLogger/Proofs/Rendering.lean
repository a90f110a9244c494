import LineLogger.Proofs.Directives
import LineLogger.Time.Format
import Mathlib

namespace LineLogger.Time

open Template

namespace Template

variable {a b : List Char} {xs ys : List Item}

theorem Formattable.append (h : Formattable a xs) (h' : Formattable b ys) :
    Formattable (a ++ b) (xs ++ ys) := by
  induction h with
  | nil => exact h'
  | cons hd _ ih =>
    rw [List.append_assoc, List.append_assoc]
    exact .cons hd ih

theorem Formattable.refused_append (h : Formattable a xs) (hb : Refused b) :
    Refused (a ++ b) := by
  obtain ⟨before, rest, zs, rfl, hf, hr⟩ := hb
  exact ⟨a ++ before, rest, xs ++ zs, (List.append_assoc ..).symm, h.append hf, hr⟩

def doubled (s : String) : String :=
  .ofList (s.toList.flatMap fun c => if c = '%' then ['%', '%'] else [c])

theorem formattable_doubled (s : String) :
    Formattable (doubled s).toList (s.toList.map .literal) := by
  rw [doubled, String.toList_ofList]
  induction s.toList with
  | nil => exact .nil
  | cons c cs ih =>
    rw [List.flatMap_cons, List.map_cons]
    split
    · next hc =>
      have hd : Directive ['%', '%'] [.literal '%'] := .shorthand rfl
      rw [hc]
      exact .cons hd ih
    · next hc => exact .cons (.plain hc) ih

end Template

namespace Format

variable {f : Format} {xs : List Item}

/-- Writes the items of the template one after the other as far as they can be formatted. The flag
tells whether that was all of them. -/
def attempt (f : Format) (i : Instant) : List Char × Bool :=
  let p := scan .text f.template.toList
  (p.1.flatMap (·.text i), p.2)

theorem render_eq_attempt (f : Format) (i : Instant) :
    f.render i = if (f.attempt i).2 then .ofList (f.attempt i).1 else f.template := by
  rw [render, renderChars, items?, itemsFrom_eq_scan, attempt]
  cases (scan .text f.template.toList).2 with
  | true => rfl
  | false => exact String.ofList_toList

theorem attempt_of_formattable (h : Formattable f.template.toList xs) (i : Instant) :
    f.attempt i = (xs.flatMap (·.text i), true) := by
  rw [attempt, h.scan]

theorem render_of_formattable (h : Formattable f.template.toList xs) (i : Instant) :
    f.render i = .ofList (xs.flatMap (·.text i)) := by
  rw [render_eq_attempt, attempt_of_formattable h, if_pos rfl]

theorem attempt_of_rejected {before rest : List Char} (ht : f.template.toList = before ++ rest)
    (h : Formattable before xs) (hr : Rejected rest) (i : Instant) :
    f.attempt i = (xs.flatMap (·.text i), false) := by
  rw [attempt, ht, h.reads, hr.scan, List.append_nil]

theorem render_of_refused (h : Refused f.template.toList) (i : Instant) :
    f.render i = f.template := by
  obtain ⟨before, rest, xs, ht, hf, hr⟩ := h
  rw [render_eq_attempt, attempt_of_rejected ht hf hr, if_neg Bool.false_ne_true]

/-- A template of directives and plain characters is rendered as the texts of its items, at every
instant. Any other one stands for itself, at every instant. -/
theorem render_all_or_nothing (f : Format) :
    (Renderable f.template.toList ↔ ¬Refused f.template.toList) ∧
      (∀ i, f.render i =
        if (f.attempt i).2 then .ofList (f.attempt i).1 else f.template) ∧
      (∀ xs, Formattable f.template.toList xs → ∀ i,
        f.attempt i = (xs.flatMap (·.text i), true) ∧
          f.render i = .ofList (xs.flatMap (·.text i))) ∧
      ∀ before rest xs, f.template.toList = before ++ rest → Formattable before xs →
        Rejected rest → ∀ i,
          f.attempt i = (xs.flatMap (·.text i), false) ∧ f.render i = f.template := by
  refine ⟨renderable_iff, render_eq_attempt f, fun xs h i => ?_, fun before rest xs ht h hr i => ?_⟩
  · exact ⟨attempt_of_formattable h i, render_of_formattable h i⟩
  · exact ⟨attempt_of_rejected ht h hr i, render_of_refused ⟨before, rest, xs, ht, h, hr⟩ i⟩

theorem modified_date_stays :
    (∀ i, (Format.mk "%H:%M %-F").render i = "%H:%M %-F") ∧
      (Format.mk "%H:%M %-F").attempt ⟨45296, 0, 0⟩ = ("12:34 ".toList, false) ∧
      (∀ i, (Format.mk "%H%.3").render i = "%H%.3") ∧
      (Format.mk "%-H%t%.3f").render ⟨45296, 7000000, 0⟩ = "12\t.007" := by
  have hm : Formattable "%H:%M ".toList (hourMinute ++ [.literal ' ']) :=
    items?_eq_some_iff.mp (by decide)
  have hh : Formattable "%H".toList [zeroPadded .hour] := items?_eq_some_iff.mp (by decide)
  have hf : Formattable "%-H%t%.3f".toList
      [.number .hour .none, .literal '\t', .literal '.', .fraction 3] :=
    items?_eq_some_iff.mp (by decide)
  have hu : Unfinished "%.3".toList := ⟨by decide, 'f', [], _, .pointDigits rfl⟩
  obtain ⟨-, -, -, hr⟩ := render_all_or_nothing ⟨"%H:%M %-F"⟩
  have hr := hr "%H:%M ".toList "%-F".toList _ (by decide) hm (.misplaced rfl rfl)
  obtain ⟨-, -, -, hc⟩ := render_all_or_nothing ⟨"%H%.3"⟩
  have hc := hc "%H".toList "%.3".toList _ (by decide) hh (.cutOff hu)
  obtain ⟨-, -, hx, -⟩ := render_all_or_nothing ⟨"%-H%t%.3f"⟩
  exact ⟨fun i => (hr i).2, (hr _).1.trans (by decide), fun i => (hc i).2,
    (hx _ hf _).2.trans (by cbv)⟩

/-- Templates one behind the other are rendered one by one if the first one can be; if the other
cannot, neither can both. A text whose percent signs are doubled is rendered as itself. -/
theorem templates_compose :
    (∀ (a b : String) (i : Instant), Renderable a.toList →
      (Renderable b.toList →
        (Format.mk (a ++ b)).render i = (Format.mk a).render i ++ (Format.mk b).render i) ∧
      (¬Renderable b.toList → (Format.mk (a ++ b)).render i = a ++ b)) ∧
    ∀ (s : String) (i : Instant), (Format.mk (doubled s)).render i = s := by
  refine ⟨fun a b i ⟨xs, ha⟩ => ⟨fun ⟨ys, hb⟩ => ?_, fun hb => ?_⟩, fun s i => ?_⟩
  · have hab : Formattable (a ++ b).toList (xs ++ ys) := by
      rw [String.toList_append]
      exact ha.append hb
    rw [render_of_formattable (f := ⟨a ++ b⟩) hab, render_of_formattable (f := ⟨a⟩) ha,
      render_of_formattable (f := ⟨b⟩) hb, List.flatMap_append, String.ofList_append]
  · apply render_of_refused
    rw [String.toList_append]
    exact ha.refused_append (not_not.mp (mt renderable_iff.mpr hb))
  · rw [render_of_formattable (f := ⟨doubled s⟩) (formattable_doubled s), List.flatMap_map]
    exact (congrArg String.ofList (List.flatMap_singleton' _)).trans String.ofList_toList

theorem percentages_compose :
    (Format.mk ("%M%%" ++ "%H")).render ⟨45296, 0, 0⟩ = "34%12" ∧
      (Format.mk ("%M%%" ++ "%")).render ⟨45296, 0, 0⟩ = "%M%%%" ∧
      (Format.mk (doubled "100 % é")).render ⟨45296, 0, 0⟩ = "100 % é" := by
  obtain ⟨hc, hd⟩ := templates_compose
  have ha : Renderable "%M%%".toList := ⟨_, items?_eq_some_iff.mp rfl⟩
  have hb : Renderable "%H".toList := ⟨_, items?_eq_some_iff.mp rfl⟩
  have hn : ¬Renderable "%".toList := by
    rintro ⟨xs, hx⟩
    cases items?_eq_some_iff.mpr hx
  refine ⟨((hc _ _ _ ha).1 hb).trans (by decide), (hc _ _ _ ha).2 hn, hd _ _⟩

end Format

end LineLogger.Time
