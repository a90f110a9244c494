import LineLogger.Proofs.Utf8

namespace LineLogger.Text.Utf8

def Character (w : Bytes) : Prop := ∃ c, String.utf8EncodeChar c = w

/-- None of the words of `L` stands at the front of `p ++ r`, and `p` is the longest part there that
one of them begins with. -/
structure Broken (L : Bytes → Prop) (p r : Bytes) : Prop where
  none : ∀ w, L w → ¬w <+: p ++ r
  begins : ∃ w, L (p ++ w)
  longest : ∀ q w, L (q ++ w) → q <+: p ++ r → q <+: p

/-- A maximal ill-formed part of what it stands in front of: as much as begins a character, or a
single byte that begins none. -/
inductive Stray : Bytes → Bytes → Prop
  | begun {p r : Bytes} (hp : p ≠ []) (h : Broken Character p r) : Stray p r
  | single {b : UInt8} {r : Bytes} (h : ∀ w, ¬Character (b :: w)) : Stray [b] r

inductive Piece
  | character (c : Char)
  | stray (p : Bytes)

def Piece.shown : Piece → Char
  | .character c => c
  | .stray _ => replacement

/-- The bytes are cut from the left into characters and maximal ill-formed parts. -/
inductive Cut : Bytes → List Piece → Prop
  | nil : Cut [] []
  | character {r : Bytes} {ps : List Piece} (c : Char) (h : Cut r ps) :
      Cut (String.utf8EncodeChar c ++ r) (.character c :: ps)
  | stray {p r : Bytes} {ps : List Piece} (hp : Stray p r) (h : Cut r ps) :
      Cut (p ++ r) (.stray p :: ps)

def WellFormed (b : Bytes) : Prop := ∃ cs : List Char, Cut b (cs.map .character)

variable {L : Bytes → Prop} {a : UInt8} {p p' r r' w w' : Bytes} {ps qs : List Piece} {c c' : Char}

theorem encodeChar_ne_nil (c : Char) : String.utf8EncodeChar c ≠ [] := by
  fun_cases String.utf8EncodeChar <;> simp

theorem encodeChar_append_inj (h : String.utf8EncodeChar c ++ r = String.utf8EncodeChar c' ++ r') :
    c = c' ∧ r = r' := by
  have hd := congrArg (decodeFrom .start) h
  rw [decodeFrom_encodeChar, decodeFrom_encodeChar] at hd
  obtain rfl := (List.cons.inj hd).1
  exact ⟨rfl, List.append_cancel_left h⟩

theorem not_character_nil : ¬Character [] := fun ⟨c, hc⟩ => encodeChar_ne_nil c hc

theorem broken_cons (h : ¬L []) :
    Broken L (a :: p) r ↔ Broken (fun w => L (a :: w)) p r := by
  constructor
  · intro hb
    exact {
      none := fun w hw hp => hb.none _ hw (List.cons_prefix_cons.mpr ⟨rfl, hp⟩)
      begins := hb.begins
      longest := fun q w hq hp =>
        (List.cons_prefix_cons.mp (hb.longest (a :: q) w hq
          (List.cons_prefix_cons.mpr ⟨rfl, hp⟩))).2 }
  · intro hb
    refine ⟨fun w hw hp => ?_, hb.begins, fun q w hq hp => ?_⟩
    · cases w with
      | nil => exact h hw
      | cons x w =>
        obtain ⟨rfl, ht⟩ := List.cons_prefix_cons.mp hp
        exact hb.none w hw ht
    · cases q with
      | nil => exact List.nil_prefix
      | cons x q =>
        obtain ⟨rfl, ht⟩ := List.cons_prefix_cons.mp hp
        exact List.cons_prefix_cons.mpr ⟨rfl, hb.longest q w hq ht⟩

theorem exists_broken (b : Bytes) (h : ∃ w, L w) (hn : ∀ w, L w → ¬w <+: b) :
    ∃ p r, p ++ r = b ∧ Broken L p r := by
  induction b generalizing L with
  | nil => exact ⟨[], [], rfl, hn, h, fun q w hq hp => hp⟩
  | cons a t ih =>
    by_cases ha : ∃ w, L (a :: w)
    · obtain ⟨p, r, rfl, hb⟩ := ih ha fun w hw hp => hn _ hw (List.cons_prefix_cons.mpr ⟨rfl, hp⟩)
      exact ⟨a :: p, r, rfl, (broken_cons fun hl => hn [] hl List.nil_prefix).mpr hb⟩
    · refine ⟨[], a :: t, rfl, hn, h, fun q w hq hp => ?_⟩
      cases q with
      | nil => exact List.nil_prefix
      | cons x q =>
        obtain ⟨rfl, -⟩ := List.cons_prefix_cons.mp hp
        exact absurd ⟨_, hq⟩ ha

theorem Broken.unique (h : Broken L p r) (h' : Broken L p' r') (he : p ++ r = p' ++ r') :
    p = p' ∧ r = r' := by
  obtain ⟨w, hw⟩ := h.begins
  obtain ⟨w', hw'⟩ := h'.begins
  have hp := h'.longest p w hw (he ▸ List.prefix_append p r)
  have hp' := h.longest p' w' hw' (he ▸ List.prefix_append p' r')
  obtain rfl := hp.eq_of_length_le hp'.length_le
  exact ⟨rfl, List.append_cancel_left he⟩

theorem Stray.ne_nil (h : Stray p r) : p ≠ [] := by
  cases h with
  | begun hp => exact hp
  | single => exact List.cons_ne_nil _ _

theorem Stray.no_character (h : Stray p r) (c : Char) (r' : Bytes) :
    String.utf8EncodeChar c ++ r' ≠ p ++ r := by
  intro he
  cases h with
  | begun hp h => exact h.none _ ⟨c, rfl⟩ ⟨r', he⟩
  | single h =>
    obtain ⟨x, w, hw⟩ := List.exists_cons_of_ne_nil (encodeChar_ne_nil c)
    rw [hw] at he
    obtain rfl := (List.cons.inj he).1
    exact h w ⟨c, hw⟩

theorem Stray.unique (h : Stray p r) (h' : Stray p' r') (he : p ++ r = p' ++ r') :
    p = p' ∧ r = r' := by
  -- A part of the one kind begins a character, and a part of the other kind does not.
  have mixed {p r r' : Bytes} {b : UInt8} (hp : p ≠ []) (h : Broken Character p r)
      (h' : ∀ w, ¬Character (b :: w)) (he : p ++ r = [b] ++ r') : False := by
    obtain ⟨x, p, rfl⟩ := List.exists_cons_of_ne_nil hp
    obtain ⟨w, hw⟩ := h.begins
    obtain rfl := (List.cons.inj he).1
    exact h' _ hw
  cases h with
  | begun hp h =>
    cases h' with
    | begun hp' h' => exact h.unique h' he
    | single h' => exact (mixed hp h h' he).elim
  | single h =>
    cases h' with
    | begun hp' h' => exact (mixed hp' h' h he.symm).elim
    | single h' =>
      obtain ⟨rfl, rfl⟩ := List.cons.inj he
      exact ⟨rfl, rfl⟩

theorem exists_piece (b : Bytes) (hb : b ≠ []) :
    (∃ c r, b = String.utf8EncodeChar c ++ r) ∨ ∃ p r, b = p ++ r ∧ Stray p r := by
  by_cases hc : ∃ w, Character w ∧ w <+: b
  · obtain ⟨-, ⟨c, rfl⟩, r, rfl⟩ := hc
    exact .inl ⟨c, r, rfl⟩
  · obtain ⟨a, t, rfl⟩ := List.exists_cons_of_ne_nil hb
    refine .inr ?_
    by_cases ha : ∃ w, Character (a :: w)
    · obtain ⟨p, r, rfl, h⟩ := exists_broken (L := fun w => Character (a :: w)) t ha
        fun w hw hp => hc ⟨_, hw, List.cons_prefix_cons.mpr ⟨rfl, hp⟩⟩
      exact ⟨a :: p, r, rfl, .begun (List.cons_ne_nil _ _) ((broken_cons not_character_nil).mpr h)⟩
    · exact ⟨[a], t, rfl, .single fun w hw => ha ⟨w, hw⟩⟩

theorem exists_cut (b : Bytes) : ∃ ps, Cut b ps := by
  -- Each piece takes at least one byte.
  induction hn : b.length using Nat.strongRecOn generalizing b with
  | _ n ih =>
    by_cases hb : b = []
    · exact ⟨[], hb ▸ .nil⟩
    · rcases exists_piece b hb with ⟨c, r, rfl⟩ | ⟨p, r, rfl, hs⟩
      · have := List.length_pos_iff.mpr (encodeChar_ne_nil c)
        obtain ⟨ps, h⟩ := ih r.length (by rw [← hn, List.length_append]; omega) r rfl
        exact ⟨_, .character c h⟩
      · have := List.length_pos_iff.mpr hs.ne_nil
        obtain ⟨ps, h⟩ := ih r.length (by rw [← hn, List.length_append]; omega) r rfl
        exact ⟨_, .stray hs h⟩

theorem Cut.unique_of_eq (h : Cut w ps) (h' : Cut w' qs) (he : w = w') : ps = qs := by
  induction h generalizing w' qs with
  | nil =>
    cases h' with
    | nil => rfl
    | character c' => exact absurd (List.append_eq_nil_iff.mp he.symm).1 (encodeChar_ne_nil c')
    | stray hp' => exact absurd (List.append_eq_nil_iff.mp he.symm).1 hp'.ne_nil
  | character c h ih =>
    cases h' with
    | nil => exact absurd (List.append_eq_nil_iff.mp he).1 (encodeChar_ne_nil c)
    | character c' h' =>
      obtain ⟨rfl, hr⟩ := encodeChar_append_inj he
      rw [ih h' hr]
    | stray hp' => exact absurd he (hp'.no_character c _)
  | stray hp h ih =>
    cases h' with
    | nil => exact absurd (List.append_eq_nil_iff.mp he).1 hp.ne_nil
    | character c' => exact absurd he.symm (hp.no_character c' _)
    | stray hp' h' =>
      obtain ⟨rfl, hr⟩ := hp.unique hp' he
      rw [ih h' hr]

theorem Cut.eq_encode {cs : List Char} (h : Cut w (cs.map .character)) : w = encode cs := by
  induction cs generalizing w with
  | nil => cases h; rfl
  | cons c cs ih =>
    cases h with
    | character c h => rw [ih h]; rfl

end LineLogger.Text.Utf8
