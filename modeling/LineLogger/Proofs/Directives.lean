import LineLogger.Time.Template
import Mathlib.Data.List.Basic
import Mathlib.Data.List.Induction
import Mathlib.Order.Nat

namespace LineLogger.Time.Template

/-- A character that stands for itself, or a directive as it is spelled, with what it shows. -/
inductive Directive : List Char → List Item → Prop
  | plain {c : Char} (h : c ≠ '%') : Directive [c] [.literal c]
  | number {c : Char} {q : Quantity} {p : Padding} (h : quantity? c = some (q, p)) :
      Directive ['%', c] [.number q p]
  | padded {m c : Char} {q : Quantity} {p own : Padding} (hm : padding? m = some p)
      (h : quantity? c = some (q, own)) : Directive ['%', m, c] [.number q p]
  | shorthand {c : Char} {xs : List Item} (h : shorthand? c = some xs) : Directive ['%', c] xs
  | point : Directive ['%', '.', 'f'] [.fractionAsNeeded]
  | pointDigits {d : Char} {n : Nat} (h : fractionDigits? d = some n) :
      Directive ['%', '.', d, 'f'] [.literal '.', .fraction n]
  | digits {d : Char} {n : Nat} (h : fractionDigits? d = some n) :
      Directive ['%', d, 'f'] [.fraction n]
  | offset {n : Nat} (h : 0 < n) (h' : n ≤ 3) :
      Directive ('%' :: List.replicate n ':' ++ ['z']) [.offset (colonForm n)]

/-- A template that is nothing but such pieces, with all that they show. -/
inductive Formattable : List Char → List Item → Prop
  | nil : Formattable [] []
  | cons {cs t : List Char} {xs ys : List Item} (h : Directive cs xs) (ht : Formattable t ys) :
      Formattable (cs ++ t) (xs ++ ys)

def Unfinished (p : List Char) : Prop := p ≠ [] ∧ ∃ c cs xs, Directive (p ++ c :: cs) xs

/-- A template that begins with something that is no directive: the template is at its end before
the directive is, the modifier does not go with the letter, or no directive begins like this. -/
inductive Rejected : List Char → Prop
  | cutOff {p : List Char} (h : Unfinished p) : Rejected p
  | misplaced {m c : Char} {t : List Char} (hm : (padding? m).isSome) (hc : quantity? c = none) :
      Rejected ('%' :: m :: c :: t)
  | unknown {p t : List Char} {c : Char} (h : Unfinished p)
      (hm : ∀ m, p = ['%', m] → padding? m = none) (hc : ∀ cs xs, ¬Directive (p ++ c :: cs) xs) :
      Rejected (p ++ c :: t)

def Renderable (t : List Char) : Prop := ∃ xs, Formattable t xs

def Refused (t : List Char) : Prop :=
  ∃ before rest xs, t = before ++ rest ∧ Formattable before xs ∧ Rejected rest

/-- What a reader has read of a directive when it is in a state. -/
inductive Begun : State → List Char → Prop
  | text : Begun .text []
  | percent : Begun .percent ['%']
  | padded {m : Char} {p : Padding} (h : padding? m = some p) : Begun (.padded p) ['%', m]
  | point : Begun .point ['%', '.']
  | pointDigits {d : Char} {n : Nat} (h : fractionDigits? d = some n) :
      Begun (.pointDigits n) ['%', '.', d]
  | digits {d : Char} {n : Nat} (h : fractionDigits? d = some n) : Begun (.digits n) ['%', d]
  | colons {n : Nat} (h : 0 < n) (h' : n ≤ 3) : Begun (.colons n) ('%' :: List.replicate n ':')

variable {s t : State} {p cs a b : List Char} {xs ys : List Item} {c : Char}

theorem afterPercent_cases (h : afterPercent c = some (t, xs)) :
    t = .text ∧ Directive ['%', c] xs ∨ t ≠ .text ∧ xs = [] ∧ Begun t ['%', c] := by
  rw [afterPercent] at h
  split at h
  · next p hp =>
    cases h
    exact .inr ⟨nofun, rfl, .padded hp⟩
  · split at h
    · next n hn =>
      cases h
      exact .inr ⟨nofun, rfl, .digits hn⟩
    · split at h
      · next hc =>
        cases h
        exact .inr ⟨nofun, rfl, hc ▸ .point⟩
      · split at h
        · next hc =>
          cases h
          exact .inr ⟨nofun, rfl, hc ▸ .colons (by decide) (by decide)⟩
        · split at h
          · next q p hq =>
            cases h
            exact .inl ⟨rfl, .number hq⟩
          · obtain ⟨ys, hy, he⟩ := Option.map_eq_some_iff.mp h
            cases he
            exact .inl ⟨rfl, .shorthand hy⟩

theorem step_cases (hb : Begun s p) (h : step s c = some (t, xs)) :
    t = .text ∧ Directive (p ++ [c]) xs ∨ t ≠ .text ∧ xs = [] ∧ Begun t (p ++ [c]) := by
  cases hb with
  | text =>
    rw [step] at h
    split at h
    · next hc =>
      cases h
      exact .inr ⟨nofun, rfl, hc ▸ .percent⟩
    · next hc =>
      cases h
      exact .inl ⟨rfl, .plain hc⟩
  | percent => exact afterPercent_cases h
  | padded hm =>
    obtain ⟨⟨q, own⟩, hq, he⟩ := Option.map_eq_some_iff.mp h
    cases he
    exact .inl ⟨rfl, .padded hm hq⟩
  | point =>
    rw [step] at h
    split at h
    · next hc =>
      cases h
      exact .inl ⟨rfl, hc ▸ .point⟩
    · obtain ⟨n, hn, he⟩ := Option.map_eq_some_iff.mp h
      cases he
      exact .inr ⟨nofun, rfl, .pointDigits hn⟩
  | pointDigits hd =>
    rw [step, Option.ite_none_right_eq_some] at h
    obtain ⟨rfl, h⟩ := h
    cases h
    exact .inl ⟨rfl, .pointDigits hd⟩
  | digits hd =>
    rw [step, Option.ite_none_right_eq_some] at h
    obtain ⟨rfl, h⟩ := h
    cases h
    exact .inl ⟨rfl, .digits hd⟩
  | @colons n h0 h3 =>
    rw [step] at h
    split at h
    · next hc =>
      cases h
      exact .inl ⟨rfl, hc ▸ .offset h0 h3⟩
    · rw [Option.ite_none_right_eq_some] at h
      obtain ⟨⟨rfl, hn⟩, h⟩ := h
      cases h
      refine .inr ⟨nofun, rfl, ?_⟩
      rw [List.cons_append, ← List.replicate_succ']
      exact .colons (Nat.succ_pos n) hn

/-- The items that a reader comes to before it meets a character that it cannot take or the end of
the template, and whether the template ends well there. -/
def scan (s : State) : List Char → List Item × Bool
  | [] => ([], s = .text)
  | c :: r =>
    match step s c with
    | none => ([], false)
    | some (t, xs) => (xs ++ (scan t r).1, (scan t r).2)

theorem itemsFrom_eq_scan (s : State) (cs : List Char) :
    itemsFrom s cs = if (scan s cs).2 then some (scan s cs).1 else none := by
  induction cs generalizing s with
  | nil => simp [itemsFrom, scan]
  | cons c cs ih =>
    rw [itemsFrom, scan]
    cases step s c with
    | none => rfl
    | some r =>
      dsimp only
      rw [ih]
      split <;> rfl

/-- Reading these characters leads from one state to another and shows these items, whatever stands
behind them. -/
def Reads (s : State) (cs : List Char) (t : State) (xs : List Item) : Prop :=
  ∀ r, scan s (cs ++ r) = (xs ++ (scan t r).1, (scan t r).2)

theorem Reads.nil (s : State) : Reads s [] s [] := fun _ => rfl

theorem Reads.trans {u : State} (h : Reads s a t xs) (h' : Reads t b u ys) :
    Reads s (a ++ b) u (xs ++ ys) := by
  intro r
  rw [List.append_assoc, h, h', List.append_assoc]

theorem reads_of_step (h : step s c = some (t, xs)) : Reads s [c] t xs := by
  intro r
  rw [List.singleton_append, scan, h]

theorem Begun.reads (hb : Begun s p) : Reads .text p s [] := by
  have h1 : Reads .text ['%'] .percent [] := reads_of_step rfl
  have hp : Reads .text ['%', '.'] .point [] := h1.trans (reads_of_step rfl)
  cases hb with
  | text => exact .nil _
  | percent => exact h1
  | padded hm => exact h1.trans (reads_of_step (by simp [step, afterPercent, hm]))
  | point => exact hp
  | pointDigits hd =>
    refine hp.trans (reads_of_step ?_)
    rw [fractionDigits?.eq_def] at hd
    split at hd <;> cases hd <;> rfl
  | digits hd =>
    refine h1.trans (reads_of_step ?_)
    rw [fractionDigits?.eq_def] at hd
    split at hd <;> cases hd <;> rfl
  | @colons n h0 h3 =>
    induction n, h0 using Nat.le_induction with
    | base => exact h1.trans (reads_of_step rfl)
    | succ n h0 ih =>
      rw [List.replicate_succ', ← List.cons_append]
      exact (ih (Nat.le_of_succ_le h3)).trans (reads_of_step (by simp [step, Nat.lt_of_succ_le h3]))

theorem Directive.reads (h : Directive cs xs) : Reads .text cs .text xs := by
  cases h with
  | plain hc => exact reads_of_step (by rw [step, if_neg hc])
  | number hq =>
    refine Begun.percent.reads.trans (reads_of_step ?_)
    rw [quantity?.eq_def] at hq
    split at hq <;> cases hq <;> rfl
  | padded hm hq => exact (Begun.padded hm).reads.trans (reads_of_step (by rw [step, hq]; rfl))
  | shorthand hx =>
    refine Begun.percent.reads.trans (reads_of_step ?_)
    rw [shorthand?.eq_def] at hx
    split at hx <;> cases hx <;> rfl
  | point => exact Begun.point.reads.trans (reads_of_step rfl)
  | pointDigits hd => exact (Begun.pointDigits hd).reads.trans (reads_of_step rfl)
  | digits hd => exact (Begun.digits hd).reads.trans (reads_of_step rfl)
  | offset h0 h3 => exact (Begun.colons h0 h3).reads.trans (reads_of_step rfl)

theorem Formattable.reads (h : Formattable cs xs) : Reads .text cs .text xs := by
  induction h with
  | nil => exact .nil _
  | cons hd _ ih => exact hd.reads.trans ih

theorem Formattable.scan (h : Formattable cs xs) : scan .text cs = (xs, true) := by
  have hr := h.reads []
  rwa [List.append_nil, Template.scan, List.append_nil] at hr

theorem Begun.unfinished (hb : Begun s p) (hs : s ≠ .text) : Unfinished p := by
  cases hb with
  | text => exact absurd rfl hs
  | percent => exact ⟨nofun, 'Y', [], _, .number rfl⟩
  | padded hm => exact ⟨nofun, 'Y', [], _, .padded hm rfl⟩
  | point => exact ⟨nofun, 'f', [], _, .point⟩
  | pointDigits hd => exact ⟨nofun, 'f', [], _, .pointDigits hd⟩
  | digits hd => exact ⟨nofun, 'f', [], _, .digits hd⟩
  | colons h0 h3 => exact ⟨nofun, 'z', [], _, .offset h0 h3⟩

theorem Begun.dropLast (hb : Begun s p) : ∃ t, Begun t p.dropLast := by
  cases hb with
  | text => exact ⟨_, .text⟩
  | percent => exact ⟨_, .text⟩
  | padded hm => exact ⟨_, .percent⟩
  | point => exact ⟨_, .percent⟩
  | pointDigits hd => exact ⟨_, .point⟩
  | digits hd => exact ⟨_, .percent⟩
  | @colons n h0 h3 =>
    rw [List.dropLast_cons_of_ne_nil (by simpa using h0.ne'), List.dropLast_replicate]
    obtain hn | hn := Nat.eq_zero_or_pos (n - 1)
    · rw [hn]
      exact ⟨_, .percent⟩
    · exact ⟨_, .colons hn ((Nat.sub_le n 1).trans h3)⟩

theorem Begun.of_append (hb : Begun s (a ++ b)) : ∃ t, Begun t a := by
  induction b using List.reverseRecOn generalizing s with
  | nil => exact ⟨s, by simpa using hb⟩
  | append_singleton b c ih =>
    obtain ⟨t, ht⟩ := hb.dropLast
    rw [← List.append_assoc, List.dropLast_concat] at ht
    exact ih ht

theorem Directive.begun (h : Directive cs xs) : ∃ s, Begun s cs.dropLast := by
  cases h with
  | plain hc => exact ⟨_, .text⟩
  | number hq => exact ⟨_, .percent⟩
  | padded hm hq => exact ⟨_, .padded hm⟩
  | shorthand hx => exact ⟨_, .percent⟩
  | point => exact ⟨_, .point⟩
  | pointDigits hd => exact ⟨_, .pointDigits hd⟩
  | digits hd => exact ⟨_, .digits hd⟩
  | offset h0 h3 =>
    rw [List.dropLast_concat]
    exact ⟨_, .colons h0 h3⟩

theorem begun_of_unfinished (h : Unfinished p) : ∃ s, s ≠ .text ∧ Begun s p := by
  obtain ⟨hp, c, cs, xs, hd⟩ := h
  obtain ⟨t, ht⟩ := hd.begun
  rw [List.dropLast_append_of_ne_nil (List.cons_ne_nil c cs)] at ht
  obtain ⟨s, hs⟩ := ht.of_append
  refine ⟨s, fun he => ?_, hs⟩
  subst he
  cases hs
  exact hp rfl

theorem not_directive_of_step (hb : Begun s p) (h : step s c = none) (cs : List Char)
    (xs : List Item) : ¬Directive (p ++ c :: cs) xs := by
  intro hd
  have hr := hd.reads []
  rw [List.append_nil, hb.reads] at hr
  simp [scan, h] at hr

theorem step_of_not_directive (hb : Begun s p) (h : ∀ cs xs, ¬Directive (p ++ c :: cs) xs) :
    step s c = none := by
  cases hs : step s c with
  | none => rfl
  | some r =>
    obtain ⟨-, hd⟩ | ⟨ht, -, hb'⟩ := step_cases hb hs
    · exact absurd hd (h [] _)
    · obtain ⟨-, d, ds, ys, hd⟩ := hb'.unfinished ht
      rw [List.append_assoc] at hd
      exact absurd hd (h _ _)

theorem Rejected.scan (h : Rejected cs) : scan .text cs = ([], false) := by
  cases h with
  | cutOff h =>
    obtain ⟨s, hs, hb⟩ := begun_of_unfinished h
    have hr := hb.reads []
    rw [List.append_nil] at hr
    simpa [Template.scan, hs] using hr
  | misplaced hm hc =>
    obtain ⟨p, hp⟩ := Option.isSome_iff_exists.mp hm
    refine ((Begun.padded hp).reads _).trans ?_
    rw [Template.scan, step, hc]
    rfl
  | unknown h _ hc =>
    obtain ⟨s, -, hb⟩ := begun_of_unfinished h
    refine (hb.reads _).trans ?_
    rw [Template.scan, step_of_not_directive hb hc]
    rfl

theorem rejected_of_step (hb : Begun s p) (h : step s c = none) (cs : List Char) :
    Rejected (p ++ c :: cs) := by
  have hn := not_directive_of_step hb h
  cases hb with
  | text =>
    rw [step] at h
    split at h <;> cases h
  | percent => exact .unknown (Begun.percent.unfinished nofun) nofun hn
  | padded hm => exact .misplaced (Option.isSome_of_eq_some hm) (Option.map_eq_none_iff.mp h)
  | point => exact .unknown (Begun.point.unfinished nofun) (by rintro m ⟨⟩; rfl) hn
  | pointDigits hd => exact .unknown ((Begun.pointDigits hd).unfinished nofun) nofun hn
  | digits hd =>
    refine .unknown ((Begun.digits hd).unfinished nofun) ?_ hn
    rintro m ⟨⟩
    rw [fractionDigits?.eq_def] at hd
    split at hd <;> cases hd <;> rfl
  | colons h0 h3 =>
    refine .unknown ((Begun.colons h0 h3).unfinished nofun) (fun m hm => ?_) hn
    have hc : m ∈ List.replicate _ ':' := (List.cons.inj hm).2 ▸ List.mem_singleton_self m
    rw [List.eq_of_mem_replicate hc]
    rfl

theorem scan_cases (hb : Begun s p) (cs : List Char) :
    (scan s cs).2 = true ∧ Formattable (p ++ cs) (scan s cs).1 ∨
      (scan s cs).2 = false ∧ ∃ before rest, p ++ cs = before ++ rest ∧
        Formattable before (scan s cs).1 ∧ Rejected rest := by
  induction cs generalizing s p with
  | nil =>
    by_cases hs : s = .text
    · subst hs
      cases hb
      exact .inl ⟨rfl, .nil⟩
    · refine .inr ⟨decide_eq_false hs, [], p, List.append_nil p, .nil, .cutOff (hb.unfinished hs)⟩
  | cons c cs ih =>
    rw [scan, List.append_cons]
    split
    · next hs =>
      rw [← List.append_cons]
      exact .inr ⟨rfl, [], _, rfl, .nil, rejected_of_step hb hs cs⟩
    · next t ys hs =>
      obtain ⟨rfl, hd⟩ | ⟨-, rfl, hb'⟩ := step_cases hb hs
      · refine (ih .text).imp (fun h => ⟨h.1, .cons hd h.2⟩) fun h => ⟨h.1, ?_⟩
        obtain ⟨before, rest, he, hf, hr⟩ := h.2
        exact ⟨_, rest, (congrArg _ he).trans (List.append_assoc ..).symm, .cons hd hf, hr⟩
      · exact ih hb'

theorem items?_eq_some_iff : items? cs = some xs ↔ Formattable cs xs := by
  rw [items?, itemsFrom_eq_scan]
  constructor
  · intro h
    rw [Option.ite_none_right_eq_some] at h
    obtain ⟨ht, h⟩ := h
    cases h
    exact (scan_cases .text cs).elim (·.2) fun h => by simp [ht] at h
  · intro h
    rw [h.scan]
    rfl

theorem items?_eq_none_iff : items? cs = none ↔ Refused cs := by
  rw [items?, itemsFrom_eq_scan]
  constructor
  · intro h
    obtain ⟨ht, -⟩ | ⟨-, before, rest, he, hf, hr⟩ := scan_cases .text cs
    · simp [ht] at h
    · exact ⟨before, rest, _, he, hf, hr⟩
  · rintro ⟨before, rest, xs, rfl, hf, hr⟩
    rw [hf.reads, hr.scan]
    rfl

theorem renderable_iff : Renderable cs ↔ ¬Refused cs := by
  rw [← items?_eq_none_iff, ← ne_eq, Option.ne_none_iff_exists']
  exact exists_congr fun xs => items?_eq_some_iff.symm

end LineLogger.Time.Template
