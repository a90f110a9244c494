import LineLogger.Proofs.Json.Lexemes
import LineLogger.Severity.Name
import Mathlib

namespace LineLogger

namespace Text

/-- The ways to write a capital letter: in upper or lower case, and an I also without its dot. -/
def Writes (c d : Char) : Prop := d = c ∨ d = c.toLower ∨ c = 'I' ∧ d = 'ı'
  deriving Decidable

/-- A word with each of its letters written in one of these ways, and nothing before or behind. -/
abbrev Spells (n s : List Char) : Prop := List.Forall₂ Writes n s

def IsOwn (c : Char) : Prop := c.isUpper = true ∧ c ≠ 'S'
  deriving Decidable

namespace UpperCase

variable {k m : Nat} {ns : List Nat}

theorem runs_beyond : ∀ r ∈ runs, 128 ≤ (r.first : Int) + r.shift ∨
    r.first = r.last ∧ (r.first = 0x131 ∧ r.shift = -232 ∨ r.first = 0x17F ∧ r.shift = -300) := by
  decide +kernel

theorem expansions_long : ∀ e ∈ expansions, 2 ≤ e.2.length := by decide +kernel

theorem mem_of_ofExpansion? (h : ofExpansion? k = some ns) : ∃ e ∈ expansions, e.2 = ns := by
  obtain ⟨e, he, hn⟩ := Option.map_eq_some_iff.mp h
  exact ⟨e, List.mem_of_find?_eq_some he, hn⟩

theorem ofRun?_cases (h : ofRun? k = some m) :
    128 ≤ m ∨ k = 0x131 ∧ m = 'I'.toNat ∨ k = 0x17F ∧ m = 'S'.toNat := by
  obtain ⟨r, hr, hm⟩ := Option.map_eq_some_iff.mp h
  have hc := List.find?_some (p := fun r : Run => r.contains k) hr
  simp only [Run.contains, Bool.and_eq_true, decide_eq_true_eq] at hc
  obtain hb | ⟨hl, ⟨hf, hs⟩ | ⟨hf, hs⟩⟩ := runs_beyond r (List.mem_of_find?_eq_some hr)
  · omega
  · refine .inr (.inl ⟨by omega, ?_⟩)
    change m = 73
    omega
  · refine .inr (.inr ⟨by omega, ?_⟩)
    change m = 83
    omega

end UpperCase

open UpperCase

variable {c d : Char} {n n' s : List Char}

theorem IsOwn.toNat_lt (h : IsOwn c) : 64 < c.toNat ∧ c.toNat < 91 := by
  have hc := h.1
  simp only [Char.isUpper, decide_eq_true_eq, ge_iff_le, UInt32.le_iff_toNat_le] at hc
  change 65 ≤ c.toNat ∧ c.toNat ≤ 90 at hc
  omega

theorem upperChar_cases (d : Char) :
    (∃ c, upperChar d = [c]) ∨ ∃ e ∈ expansions, upperChar d = e.2.map .ofNat := by
  rw [upperChar]
  split
  · exact .inl ⟨_, rfl⟩
  · split
    · next h =>
      obtain ⟨e, he, rfl⟩ := mem_of_ofExpansion? h
      exact .inr ⟨e, he, rfl⟩
    · exact .inl ⟨_, rfl⟩
    · exact .inl ⟨_, rfl⟩

theorem writes_of_upperChar (hc : IsOwn c) (h : upperChar d = [c]) : Writes c d := by
  have hn := hc.toNat_lt
  rw [upperChar] at h
  split at h
  · next hd =>
    have ha := Json.forall_char_lt (p := fun d => IsOwn d.toUpper → Writes d.toUpper d)
      (by decide) hd
    cases h
    exact ha hc
  · split at h
    · next he =>
      obtain ⟨e, hm, rfl⟩ := mem_of_ofExpansion? he
      have hl := congrArg List.length h
      have hl' := expansions_long e hm
      rw [List.length_map, List.length_singleton] at hl
      omega
    · next k he hr =>
      have hk : Char.ofNat k = c := List.singleton_inj.mp h
      obtain hm | ⟨hd, rfl⟩ | ⟨hd, rfl⟩ := ofRun?_cases hr
      · have ht := congrArg Char.toNat hk
        rw [Char.toNat_ofNat] at ht
        split at ht <;> omega
      · rw [Char.ofNat_toNat] at hk
        exact .inr (.inr ⟨hk.symm, Char.toNat_inj.mp hd⟩)
      · rw [Char.ofNat_toNat] at hk
        exact absurd hk.symm hc.2
    · cases h
      exact .inl rfl

theorem upperChar_of_writes (hc : IsOwn c) (h : Writes c d) : upperChar d = [c] := by
  have ha := Json.forall_char_lt (k := 91)
    (p := fun c => IsOwn c → upperChar c = [c] ∧ upperChar c.toLower = [c]) (by decide)
    hc.toNat_lt.2 hc
  obtain rfl | rfl | ⟨rfl, rfl⟩ := h
  · exact ha.1
  · exact ha.2
  · decide

/-- A word of such letters in which no expansion stands. -/
structure IsPlainWord (n : List Char) : Prop where
  own : ∀ c ∈ n, IsOwn c
  free : ∀ e ∈ expansions, ¬e.2.map .ofNat <:+: n

theorem IsPlainWord.tail (h : IsPlainWord (c :: n)) : IsPlainWord n where
  own d hd := h.own d (List.mem_cons_of_mem c hd)
  free e he hi := h.free e he (hi.trans (List.suffix_cons c n).isInfix)

theorem IsPlainWord.upper_eq_iff (hn : IsPlainWord n) : upper s = n ↔ Spells n s := by
  constructor
  · intro h
    induction s generalizing n with
    | nil =>
      cases h
      exact .nil
    | cons d s ih =>
      rw [upper, List.flatMap_cons] at h
      obtain ⟨c, hc⟩ | ⟨e, he, hd⟩ := upperChar_cases d
      · rw [hc, List.singleton_append] at h
        subst h
        exact .cons (writes_of_upperChar (hn.own c List.mem_cons_self) hc) (ih hn.tail rfl)
      · rw [hd] at h
        exact absurd ⟨[], _, h⟩ (hn.free e he)
  · intro h
    induction h with
    | nil => rfl
    | cons hw _ ih =>
      rw [upper, List.flatMap_cons, upperChar_of_writes (hn.own _ List.mem_cons_self) hw]
      exact congrArg (List.cons _) (ih hn.tail)

theorem Spells.length_upperChar (hn : IsPlainWord n) (h : Spells n s) (hd : d ∈ s) :
    (upperChar d).length = 1 := by
  induction h with
  | nil => cases hd
  | cons hw _ ih =>
    obtain rfl | hd := List.mem_cons.mp hd
    · rw [upperChar_of_writes (hn.own _ List.mem_cons_self) hw]
      rfl
    · exact ih hn.tail hd

end Text

namespace Severity

open Text

def names : List (String × Severity) :=
  [("ERROR", .error), ("ERR", .error), ("DEBUG", .debug), ("DEB", .debug), ("TRACE", .trace),
    ("TRC", .trace), ("WARN", .warn), ("WARNING", .warn), ("WRN", .warn), ("INFO", .info),
    ("INF", .info)]

def words : List (List Char) :=
  [['E', 'R', 'R', 'O', 'R'], ['E', 'R', 'R'], ['D', 'E', 'B', 'U', 'G'], ['D', 'E', 'B'],
    ['T', 'R', 'A', 'C', 'E'], ['T', 'R', 'C'], ['W', 'A', 'R', 'N'],
    ['W', 'A', 'R', 'N', 'I', 'N', 'G'], ['W', 'R', 'N'], ['I', 'N', 'F', 'O'], ['I', 'N', 'F']]

theorem isPlainWord_of_mem_words {w : List Char} (h : w ∈ words) : IsPlainWord w where
  own := (by simp [words, IsOwn] : ∀ w ∈ words, ∀ c ∈ w, IsOwn c) w h
  free := (by decide +kernel :
    ∀ w ∈ words, ∀ e ∈ UpperCase.expansions, ¬e.2.map .ofNat <:+: w) w h

variable {n n' s : String} {v v' : Severity} {e : Error}

theorem mem_names_iff : (n, v) ∈ names ↔ n ∈ v.spellings := by
  cases v <;> simp [names, spellings]

theorem eq_of_mem_names (h : (n, v) ∈ names) (h' : (n, v') ∈ names) : v = v' := by
  have ha : ∀ p ∈ names, ∀ q ∈ names, p.1 = q.1 → p.2 = q.2 := by decide
  exact ha _ h _ h' rfl

theorem isPlainWord_of_mem (h : (n, v) ∈ names) : IsPlainWord n.toList :=
  isPlainWord_of_mem_words ((by decide : ∀ p ∈ names, p.1.toList ∈ words) _ h)

theorem parse_eq_ok_iff : parse s = .ok v ↔ (String.ofList (upper s.toList), v) ∈ names := by
  rw [parse]
  split
  · next v' hf =>
    have hm := List.find?_some hf
    have hn : (String.ofList (upper s.toList), v') ∈ names := by
      rw [mem_names_iff]
      exact List.contains_iff_mem.mp hm
    constructor
    · intro h
      cases h
      exact hn
    · intro h
      rw [eq_of_mem_names h hn]
  · next hf =>
    refine iff_of_false nofun fun h => ?_
    have hv := List.find?_eq_none.mp hf v (mem_all v)
    rw [mem_names_iff] at h
    exact hv (List.contains_iff_mem.mpr h)

theorem parse_eq_error (h : parse s = .error e) : e = .unknownSeverityName s := by
  rw [parse] at h
  split at h
  · cases h
  · cases h
    rfl

theorem spells_iff (h : (n, v) ∈ names) :
    Spells n.toList s.toList ↔ String.ofList (upper s.toList) = n := by
  rw [← (isPlainWord_of_mem h).upper_eq_iff]
  constructor
  · intro hu
    rw [hu, String.ofList_toList]
  · rintro rfl
    rw [String.toList_ofList]

/-- A text is read as a severity exactly if it is one of the eleven names in any case, an I perhaps
without its dot. There is only one such name, and any other text is handed back. -/
theorem parse_names (s : String) :
    (∀ v, parse s = .ok v ↔ ∃ n, (n, v) ∈ names ∧ Spells n.toList s.toList) ∧
    (∀ e, parse s = .error e ↔
      e = .unknownSeverityName s ∧ ∀ n v, (n, v) ∈ names → ¬Spells n.toList s.toList) ∧
    (∀ n n' v v', (n, v) ∈ names → (n', v') ∈ names → Spells n.toList s.toList →
      Spells n'.toList s.toList → n = n' ∧ v = v') ∧
    ∀ c ∈ s.toList, (upperChar c).length ≠ 1 → parse s = .error (.unknownSeverityName s) := by
  have hok : ∀ v, parse s = .ok v ↔ ∃ n, (n, v) ∈ names ∧ Spells n.toList s.toList := by
    intro v
    rw [parse_eq_ok_iff]
    constructor
    · intro h
      exact ⟨_, h, (spells_iff h).mpr rfl⟩
    · rintro ⟨n, hn, hs⟩
      rwa [(spells_iff hn).mp hs]
  have herror : (∀ n v, (n, v) ∈ names → ¬Spells n.toList s.toList) →
      parse s = .error (.unknownSeverityName s) := by
    intro h
    cases hp : parse s with
    | ok v =>
      obtain ⟨n, hn, hs⟩ := (hok v).mp hp
      exact absurd hs (h n v hn)
    | error e => rw [parse_eq_error hp]
  refine ⟨hok, fun e => ?_, fun n n' v v' hn hn' hs hs' => ?_, fun c hc hl => ?_⟩
  · constructor
    · intro h
      refine ⟨parse_eq_error h, fun n v hn hs => ?_⟩
      rw [(hok v).mpr ⟨n, hn, hs⟩] at h
      cases h
    · rintro ⟨rfl, h⟩
      exact herror h
  · obtain rfl := (spells_iff hn).mp hs
    obtain rfl := (spells_iff hn').mp hs'
    exact ⟨rfl, eq_of_mem_names hn hn'⟩
  · exact herror fun n v hn hs => hl (hs.length_upperChar (isPlainWord_of_mem hn) hc)

theorem warning_without_dots :
    parse "wArnıng" = .ok .warn ∧ parse "ıﬁ" = .error (.unknownSeverityName "ıﬁ") :=
  ⟨((parse_names "wArnıng").1 .warn).mpr ⟨"WARNING", by decide, by decide⟩,
    (parse_names "ıﬁ").2.2.2 'ﬁ' (by decide) (by decide)⟩

end Severity

end LineLogger
