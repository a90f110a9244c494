import LineLogger.Proofs.Cutting
import Mathlib

namespace LineLogger.Text.Utf8

variable {a b low high : UInt8} {p r t w : Bytes} {need code n v : Nat} {ps : List Piece} {c : Char}

/-- The bytes that a state inside a character asks for. -/
inductive Completes : Nat → UInt8 → UInt8 → Bytes → Prop
  | last {low high b : UInt8} (hl : low ≤ b) (hh : b ≤ high) : Completes 0 low high [b]
  | more {need : Nat} {low high b : UInt8} {t : Bytes} (hl : low ≤ b) (hh : b ≤ high)
      (h : Completes need 0x80 0xBF t) : Completes (need + 1) low high (b :: t)

theorem exists_completes (need : Nat) (h : low ≤ high) : ∃ t, Completes need low high t := by
  induction need generalizing low high with
  | zero => exact ⟨[low], .last (UInt8.le_refl _) h⟩
  | succ need ih =>
    obtain ⟨t, ht⟩ := ih (show (0x80 : UInt8) ≤ 0xBF by decide)
    exact ⟨low :: t, .more (UInt8.le_refl _) h ht⟩

theorem not_completes_nil : ¬Completes need low high [] := nofun

theorem Completes.bounds (h : Completes need low high (b :: t)) : low ≤ b ∧ b ≤ high := by
  cases h with
  | last hl hh => exact ⟨hl, hh⟩
  | more hl hh => exact ⟨hl, hh⟩

theorem completes_more (hl : low ≤ a) (hh : a ≤ high) :
    (fun w => Completes (need + 1) low high (a :: w)) = Completes need 0x80 0xBF := by
  funext w
  refine propext ⟨fun h => ?_, .more hl hh⟩
  cases h with
  | more _ _ h => exact h

/-- Inside a character, what is broken shows as one replacement, and the next character starts right
behind it. -/
theorem decodeFrom_broken (hr : low ≤ high) (h : Broken (Completes need low high) p r) :
    decodeFrom (.inside need low high code) (p ++ r) = replacement :: decodeFrom .start r := by
  induction p generalizing need low high code with
  | nil =>
    cases r with
    | nil => rfl
    | cons x r =>
      -- A byte in the range would make a longer part, and this one is the longest.
      have hx : ¬(low ≤ x ∧ x ≤ high) := by
        rintro ⟨hl, hh⟩
        have hq : ∃ w, Completes need low high ([x] ++ w) := by
          cases need with
          | zero => exact ⟨[], .last hl hh⟩
          | succ need =>
            obtain ⟨w, hw⟩ := exists_completes need (show (0x80 : UInt8) ≤ 0xBF by decide)
            exact ⟨w, .more hl hh hw⟩
        obtain ⟨w, hw⟩ := hq
        exact absurd (h.longest [x] w hw ⟨r, rfl⟩) (by simp)
      rw [List.nil_append, decodeFrom_cons, next, if_neg hx, decodeFrom_cons .start]
      rfl
  | cons x p ih =>
    obtain ⟨w, hw⟩ := h.begins
    rw [List.cons_append] at hw
    generalize p ++ w = t at hw
    cases need with
    | zero =>
      cases hw with
      | last hl hh => exact absurd ⟨p ++ r, rfl⟩ (h.none [x] (.last hl hh))
    | succ need =>
      cases hw with
      | more hl hh ht =>
        -- Behind the first byte the part is broken in the same sense, now with plain trail bytes.
        rw [broken_cons not_completes_nil, completes_more hl hh] at h
        rw [List.cons_append, decodeFrom_cons, next, if_pos ⟨hl, hh⟩]
        exact ih (by decide) h

def following (b : UInt8) : Nat := if b.toNat < 0xE0 then 0 else if b.toNat < 0xF0 then 1 else 2

/-- The second byte's least value after a first one. A smaller one would make the form overlong. -/
def secondLow (b : UInt8) : UInt8 := if b = 0xE0 then 0xA0 else if b = 0xF0 then 0x90 else 0x80

def secondHigh (b : UInt8) : UInt8 := if b = 0xED then 0x9F else if b = 0xF4 then 0x8F else 0xBF

theorem secondLow_le {x : UInt8} : secondLow b ≤ x ↔
    0x80 ≤ x.toNat ∧ (b.toNat = 0xE0 → 0xA0 ≤ x.toNat) ∧ (b.toNat = 0xF0 → 0x90 ≤ x.toNat) := by
  have hE : b = 0xE0 ↔ b.toNat = 0xE0 := UInt8.toNat_inj.symm
  have hF : b = 0xF0 ↔ b.toNat = 0xF0 := UInt8.toNat_inj.symm
  rw [secondLow, UInt8.le_iff_toNat_le]
  simp only [hE, hF]
  split
  · show 160 ≤ _ ↔ _
    omega
  · split
    · show 144 ≤ _ ↔ _
      omega
    · show 128 ≤ _ ↔ _
      omega

theorem le_secondHigh {x : UInt8} : x ≤ secondHigh b ↔
    x.toNat ≤ 0xBF ∧ (b.toNat = 0xED → x.toNat ≤ 0x9F) ∧ (b.toNat = 0xF4 → x.toNat ≤ 0x8F) := by
  have hE : b = 0xED ↔ b.toNat = 0xED := UInt8.toNat_inj.symm
  have hF : b = 0xF4 ↔ b.toNat = 0xF4 := UInt8.toNat_inj.symm
  rw [secondHigh, UInt8.le_iff_toNat_le]
  simp only [hE, hF]
  split
  · show _ ≤ 159 ↔ _
    omega
  · split
    · show _ ≤ 143 ↔ _
      omega
    · show _ ≤ 191 ↔ _
      omega

theorem exists_char (h : v.isValidChar) : ∃ c : Char, c.val.toNat = v := ⟨.ofNatAux v h, rfl⟩

theorem ofNat_eq (h : n = b.toNat) : UInt8.ofNat n = b := by
  rw [h, UInt8.ofNat_toNat]

theorem character_two {x : UInt8} (hb : 0xC2 ≤ b.toNat) (hb' : b.toNat < 0xE0)
    (hl : secondLow b ≤ x) (hh : x ≤ secondHigh b) : Character [b, x] := by
  rw [secondLow_le] at hl
  rw [le_secondHigh] at hh
  obtain ⟨c, hc⟩ := exists_char (v := 64 * (b.toNat - 0xC0) + (x.toNat - 0x80)) (by omega)
  refine ⟨c, ?_⟩
  simp only [String.utf8EncodeChar, hc]
  rw [if_neg (by omega), if_pos (by omega), ofNat_eq (b := b) (by omega),
    ofNat_eq (b := x) (by omega)]

theorem character_three {x y : UInt8} (hb : 0xE0 ≤ b.toNat) (hb' : b.toNat < 0xF0)
    (hl : secondLow b ≤ x) (hh : x ≤ secondHigh b) (hy : 0x80 ≤ y) (hy' : y ≤ 0xBF) :
    Character [b, x, y] := by
  rw [secondLow_le] at hl
  rw [le_secondHigh] at hh
  have h : 0x80 ≤ y.toNat ∧ y.toNat ≤ 0xBF := ⟨hy, hy'⟩
  obtain ⟨c, hc⟩ := exists_char
    (v := 64 * (64 * (b.toNat - 0xE0) + (x.toNat - 0x80)) + (y.toNat - 0x80)) (by omega)
  refine ⟨c, ?_⟩
  simp only [String.utf8EncodeChar, hc]
  rw [if_neg (by omega), if_neg (by omega), if_pos (by omega), ofNat_eq (b := b) (by omega),
    ofNat_eq (b := x) (by omega), ofNat_eq (b := y) (by omega)]

theorem character_four {x y z : UInt8} (hb : 0xF0 ≤ b.toNat) (hb' : b.toNat < 0xF5)
    (hl : secondLow b ≤ x) (hh : x ≤ secondHigh b) (hy : 0x80 ≤ y) (hy' : y ≤ 0xBF)
    (hz : 0x80 ≤ z) (hz' : z ≤ 0xBF) : Character [b, x, y, z] := by
  rw [secondLow_le] at hl
  rw [le_secondHigh] at hh
  have h : 0x80 ≤ y.toNat ∧ y.toNat ≤ 0xBF := ⟨hy, hy'⟩
  have h' : 0x80 ≤ z.toNat ∧ z.toNat ≤ 0xBF := ⟨hz, hz'⟩
  obtain ⟨c, hc⟩ := exists_char
    (v := 64 * (64 * (64 * (b.toNat - 0xF0) + (x.toNat - 0x80)) + (y.toNat - 0x80)) +
      (z.toNat - 0x80)) (by omega)
  refine ⟨c, ?_⟩
  simp only [String.utf8EncodeChar, hc]
  rw [if_neg (by omega), if_neg (by omega), if_neg (by omega), ofNat_eq (b := b) (by omega),
    ofNat_eq (b := x) (by omega), ofNat_eq (b := y) (by omega), ofNat_eq (b := z) (by omega)]

theorem completes_trail (m : Nat) :
    0x80 ≤ UInt8.ofNat (m % 64 + 0x80) ∧ UInt8.ofNat (m % 64 + 0x80) ≤ 0xBF := by
  have hm := toNat_ofNat_of_lt (n := m % 64 + 0x80) (by omega)
  rw [UInt8.le_iff_toNat_le, UInt8.le_iff_toNat_le, hm]
  exact ⟨Nat.le_add_left _ _, by show _ ≤ 191; omega⟩

theorem character_cases (h : Character (b :: t)) :
    b.toNat < 0x80 ∧ t = [] ∨ 0xC2 ≤ b.toNat ∧ b.toNat < 0xF5 ∧
      Completes (following b) (secondLow b) (secondHigh b) t := by
  obtain ⟨c, hc⟩ := h
  have hv : c.val.toNat < 0xD800 ∨ 0xDFFF < c.val.toNat ∧ c.val.toNat < 0x110000 := c.valid
  revert hc
  fun_cases String.utf8EncodeChar with
  | case1 v h =>
    intro hc
    obtain ⟨rfl, rfl⟩ := List.cons.inj hc
    have hb : (UInt8.ofNat v).toNat = v := toNat_ofNat_of_lt (by omega)
    exact .inl ⟨by omega, rfl⟩
  | case2 v h h' =>
    intro hc
    obtain ⟨rfl, rfl⟩ := List.cons.inj hc
    have hb : (UInt8.ofNat (v / 64 % 32 + 192)).toNat = _ := toNat_ofNat_of_lt (by omega)
    have hx : (UInt8.ofNat (v % 64 + 128)).toNat = _ := toNat_ofNat_of_lt (by omega)
    refine .inr ⟨by omega, by omega, ?_⟩
    rw [following, if_pos (by omega)]
    refine .last (secondLow_le.mpr ?_) (le_secondHigh.mpr ?_) <;> omega
  | case3 v h h' h'' =>
    intro hc
    obtain ⟨rfl, rfl⟩ := List.cons.inj hc
    have hb : (UInt8.ofNat (v / 4096 % 16 + 224)).toNat = _ := toNat_ofNat_of_lt (by omega)
    have hx : (UInt8.ofNat (v / 64 % 64 + 128)).toNat = _ := toNat_ofNat_of_lt (by omega)
    obtain ⟨hl, hh⟩ := completes_trail v
    refine .inr ⟨by omega, by omega, ?_⟩
    rw [following, if_neg (by omega), if_pos (by omega)]
    refine .more (secondLow_le.mpr ?_) (le_secondHigh.mpr ?_) (.last hl hh) <;> omega
  | case4 v h h' h'' =>
    intro hc
    obtain ⟨rfl, rfl⟩ := List.cons.inj hc
    have hb : (UInt8.ofNat (v / 262144 % 8 + 240)).toNat = _ := toNat_ofNat_of_lt (by omega)
    have hx : (UInt8.ofNat (v / 4096 % 64 + 128)).toNat = _ := toNat_ofNat_of_lt (by omega)
    obtain ⟨hl, hh⟩ := completes_trail (v / 64)
    obtain ⟨hl', hh'⟩ := completes_trail v
    refine .inr ⟨by omega, by omega, ?_⟩
    rw [following, if_neg (by omega), if_neg (by omega)]
    refine .more (secondLow_le.mpr ?_) (le_secondHigh.mpr ?_) (.more hl hh (.last hl' hh')) <;>
      omega

theorem secondLow_le_secondHigh (b : UInt8) : secondLow b ≤ secondHigh b := by
  rw [secondLow, secondHigh]
  split
  · next h => subst h; decide
  · split
    · next h => subst h; decide
    · split
      · decide
      · split <;> decide

theorem first_single (h : 0x80 ≤ b.toNat) (h' : b.toNat < 0xC2 ∨ 0xF5 ≤ b.toNat) :
    first b = (.start, [replacement]) := by
  have hb (m : UInt8) (hm : 0xC2 ≤ m.toNat ∧ m.toNat < 0xF5) : b ≠ m := by
    rintro rfl
    omega
  have hn : ¬b.toNat < 0x80 := by omega
  rcases h' with h' | h'
  · simp [first, UInt8.lt_iff_toNat_lt, hn, h']
  · have h₁ : ¬b.toNat < 194 := by omega
    have h₂ : ¬b.toNat < 224 := by omega
    have h₃ : ¬b.toNat < 240 := by omega
    have h₄ : ¬b.toNat < 244 := by omega
    simp [first, UInt8.lt_iff_toNat_lt, hn, h₁, h₂, h₃, h₄, hb 0xE0 (by decide),
      hb 0xED (by decide), hb 0xF0 (by decide), hb 0xF4 (by decide)]

theorem character_cons (h : 0xC2 ≤ b.toNat) (h' : b.toNat < 0xF5) :
    Character (b :: t) ↔ Completes (following b) (secondLow b) (secondHigh b) t := by
  refine ⟨fun hc => ?_, fun hc => ?_⟩
  · rcases character_cases hc with ⟨hl, -⟩ | ⟨-, -, hc⟩
    · omega
    · exact hc
  · rw [following] at hc
    split at hc
    · next h₂ =>
      cases hc with
      | last hl hh => exact character_two h h₂ hl hh
    · split at hc
      · next h₂ h₃ =>
        cases hc with
        | more hl hh hc =>
          cases hc with
          | last hy hy' => exact character_three (Nat.not_lt.mp h₂) h₃ hl hh hy hy'
      · next h₂ h₃ =>
        cases hc with
        | more hl hh hc =>
          cases hc with
          | more hy hy' hc =>
            cases hc with
            | last hz hz' => exact character_four (Nat.not_lt.mp h₃) h' hl hh hy hy' hz hz'

theorem first_inside (h : 0xC2 ≤ b.toNat) (h' : b.toNat < 0xF5) :
    ∃ code, first b = (.inside (following b) (secondLow b) (secondHigh b) code, []) := by
  have hb {m : UInt8} (hm : b.toNat ≠ m.toNat) : ¬b = m := fun e => hm (congrArg _ e)
  rw [following]
  split
  · next h₂ =>
    refine ⟨b.toNat - 0xC0, ?_⟩
    rw [first_two h h₂, secondLow, secondHigh, if_neg (hb (by simp; omega)),
      if_neg (hb (by simp; omega)), if_neg (hb (by simp; omega)), if_neg (hb (by simp; omega))]
  · split
    · next h₂ h₃ =>
      refine ⟨b.toNat - 0xE0, ?_⟩
      have h₀ : ¬b = 0xF0 := hb (by simp; omega)
      have h₄ : ¬b = 0xF4 := hb (by simp; omega)
      rw [first_three (by omega) h₃, secondLow, secondHigh, if_neg h₀, if_neg h₄]
    · next h₂ h₃ =>
      refine ⟨b.toNat - 0xF0, ?_⟩
      have h₀ : ¬b = 0xE0 := hb (by simp; omega)
      have h₄ : ¬b = 0xED := hb (by simp; omega)
      rw [first_four (by omega) h', secondLow, secondHigh, if_neg h₀, if_neg h₄]

theorem character_of_lt (h : b.toNat < 0x80) : Character [b] := by
  obtain ⟨c, hc⟩ := exists_char (v := b.toNat) (by omega)
  refine ⟨c, ?_⟩
  simp only [String.utf8EncodeChar, hc]
  rw [if_pos (by omega), UInt8.ofNat_toNat]

theorem decodeFrom_stray (h : Stray p r) :
    decodeFrom .start (p ++ r) = replacement :: decodeFrom .start r := by
  cases h with
  | begun hp h =>
    obtain ⟨a, p, rfl⟩ := List.exists_cons_of_ne_nil hp
    obtain ⟨w, hw⟩ := h.begins
    by_cases ha : a.toNat < 0x80
    · exact absurd ⟨p ++ r, rfl⟩ (h.none [a] (character_of_lt ha))
    · obtain ⟨ha', -⟩ | ⟨hl, hh, -⟩ := character_cases hw
      · exact absurd ha' ha
      obtain ⟨code, hf⟩ := first_inside hl hh
      rw [broken_cons not_character_nil, funext fun t => propext (character_cons hl hh)] at h
      rw [List.cons_append, decodeFrom_lead hf]
      exact decodeFrom_broken (secondLow_le_secondHigh a) h
  | @single b r h =>
    have hf : first b = (.start, [replacement]) := by
      refine first_single (Nat.not_lt.mp fun hb => h [] (character_of_lt hb)) ?_
      refine Decidable.byContradiction fun hb => ?_
      obtain ⟨t, ht⟩ := exists_completes (following b) (secondLow_le_secondHigh b)
      exact h t ((character_cons (by omega) (by omega)).mpr ht)
    rw [List.singleton_append, decodeFrom_cons, next, hf]
    rfl

theorem decode_of_cut (h : Cut w ps) : decode w = ps.map Piece.shown := by
  induction h with
  | nil => rfl
  | character c h ih => exact (decodeFrom_encodeChar c _).trans (congrArg (c :: ·) ih)
  | stray hp h ih => exact (decodeFrom_stray hp).trans (congrArg (replacement :: ·) ih)

def trail (v : Nat) : Nat → Bytes
  | 0 => []
  | n + 1 => .ofNat (v / 64 ^ n % 64 + 0x80) :: trail v n

/-- The bits of `v` spread over `n + 1` bytes in the way of a character, whether or not `v` is one
that is written so. -/
def layout (n v : Nat) : Bytes := .ofNat (v / 64 ^ n + (256 - 2 ^ (7 - n))) :: trail v n

/-- A number that no character has, or one with a character that takes fewer than `n + 1` bytes. -/
inductive Forbidden (n : Nat) : Nat → Prop
  | overlong (c : Char) (h : c.utf8Size ≤ n) : Forbidden n c.val.toNat
  | surrogate {v : Nat} (h : 0xD800 ≤ v) (h' : v ≤ 0xDFFF) : Forbidden n v
  | beyond {v : Nat} (h : 0x10FFFF < v) : Forbidden n v

def Shut (a b : UInt8) : Prop :=
  0x80 ≤ a.toNat ∧
    (a.toNat < 0xC2 ∨ 0xF5 ≤ a.toNat ∨ ¬(secondLow a ≤ b ∧ b ≤ secondHigh a))

theorem encodeChar_eq_layout (h : 0x80 ≤ c.val.toNat) :
    String.utf8EncodeChar c = layout (c.utf8Size - 1) c.val.toNat := by
  have hc : c.val.toNat < 0xD800 ∨ 0xDFFF < c.val.toNat ∧ c.val.toNat < 0x110000 := c.valid
  rw [← String.length_utf8EncodeChar]
  fun_cases String.utf8EncodeChar with
  | case1 v h' => omega
  | case2 v h' h₂ =>
    rw [show v / 64 % 32 = v / 64 by omega]
    simp [layout, trail, v]
  | case3 v h' h₂ h₃ =>
    rw [show v / 4096 % 16 = v / 4096 by omega]
    simp [layout, trail, v]
  | case4 v h' h₂ h₃ =>
    rw [show v / 262144 % 8 = v / 262144 by omega]
    simp [layout, trail, v]

theorem decodeFrom_trail (v n : Nat) (r : Bytes) :
    decodeFrom .start (trail v n ++ r) = List.replicate n replacement ++ decodeFrom .start r := by
  induction n with
  | zero => rfl
  | succ n ih =>
    have hb := toNat_ofNat_of_lt (n := v / 64 ^ n % 64 + 0x80) (by omega)
    rw [trail, List.cons_append, decodeFrom_cons, next, first_single (by omega) (by omega), ih]
    rfl

theorem Shut.not_bounds (h : Shut a b) (hl : 0xC2 ≤ a.toNat) (hh : a.toNat < 0xF5) :
    ¬(secondLow a ≤ b ∧ b ≤ secondHigh a) := by
  rcases h.2 with h | h | h
  · omega
  · omega
  · exact h

theorem decodeFrom_shut (h : Shut a b) (r : Bytes) :
    decodeFrom .start (a :: b :: r) = replacement :: decodeFrom .start (b :: r) := by
  by_cases hr : 0xC2 ≤ a.toNat ∧ a.toNat < 0xF5
  · obtain ⟨code, hf⟩ := first_inside hr.1 hr.2
    rw [decodeFrom_lead hf, decodeFrom_cons, next, if_neg (h.not_bounds hr.1 hr.2),
      decodeFrom_cons .start]
    rfl
  · rw [decodeFrom_cons, next, first_single h.1 (by omega)]
    rfl

theorem Shut.no_character (h : Shut a b) (hw : Character w) : ¬w <+: a :: b :: r := by
  intro hp
  cases w with
  | nil => exact not_character_nil hw
  | cons x w =>
    obtain ⟨rfl, ht⟩ := List.cons_prefix_cons.mp hp
    rcases character_cases hw with ⟨hx, -⟩ | ⟨hl, hh, hc⟩
    · exact absurd h.1 (by omega)
    · cases w with
      | nil => exact not_completes_nil hc
      | cons y w =>
        obtain ⟨rfl, -⟩ := List.cons_prefix_cons.mp ht
        exact h.not_bounds hl hh hc.bounds

theorem utf8Size_le_iff (c : Char) (n : Nat) : c.utf8Size ≤ n ↔
    1 ≤ n ∧ (n = 1 → c.val.toNat < 0x80) ∧ (n = 2 → c.val.toNat < 0x800) ∧
      (n = 3 → c.val.toNat < 0x10000) := by
  rw [← String.length_utf8EncodeChar]
  fun_cases String.utf8EncodeChar <;> simp only [List.length_cons, List.length_nil] <;> omega

theorem Forbidden.shut (h : Forbidden (n + 1) v) (hn : n < 5) (hv : v < 2 ^ (5 * n + 11)) :
    Shut (.ofNat (v / 64 ^ (n + 1) + (256 - 2 ^ (7 - (n + 1)))))
      (.ofNat (v / 64 ^ n % 64 + 0x80)) := by
  have hb : (UInt8.ofNat (v / 64 ^ n % 64 + 0x80)).toNat = _ := toNat_ofNat_of_lt (by omega)
  rw [Shut, secondLow_le, le_secondHigh, hb]
  have hs : (n = 0 → v < 0x80) ∧ (n = 1 → v < 0x800 ∨ 0xD800 ≤ v ∧ v ≤ 0xDFFF) ∧
      (n = 2 → v < 0x10000 ∨ 0x10FFFF < v) := by
    have h₀ : n = 0 → v < 2048 := by rintro rfl; exact hv
    have h₁ : n = 1 → v < 65536 := by rintro rfl; exact hv
    cases h with
    | overlong c h =>
      rw [utf8Size_le_iff] at h
      omega
    | surrogate h h' => omega
    | beyond h => omega
  obtain rfl | rfl | rfl | rfl | rfl : n = 0 ∨ n = 1 ∨ n = 2 ∨ n = 3 ∨ n = 4 := by omega
  all_goals
    simp only [Nat.reducePow, Nat.reduceAdd, Nat.reduceSub, Nat.reduceMul] at hv ⊢
    rw [toNat_ofNat_of_lt (by omega)]
    omega

theorem Forbidden.decode_eq (h : Forbidden n v) (h₁ : 1 ≤ n) (h₅ : n ≤ 5)
    (hv : v < 2 ^ (5 * n + 6)) (r : Bytes) :
    (∀ w, Character w → ¬w <+: layout n v ++ r) ∧
      decode (layout n v ++ r) = List.replicate (n + 1) replacement ++ decode r := by
  obtain ⟨n, rfl⟩ := Nat.exists_eq_add_of_le' h₁
  have hs := h.shut (by omega) (by rwa [Nat.mul_add] at hv)
  refine ⟨fun w hw => hs.no_character hw, ?_⟩
  exact (decodeFrom_shut hs _).trans
    (congrArg (replacement :: ·) (decodeFrom_trail v (n + 1) r))

/-- There is one way to cut bytes into characters and maximal ill-formed parts, and the text shows a
character as itself and an ill-formed part as one replacement. -/
theorem toString_of_cut :
    (∀ b, ∃ ps, Cut b ps ∧ (∀ qs, Cut b qs → qs = ps) ∧
      toString b = String.ofList (ps.map Piece.shown)) ∧
    (∀ s, toString (ofString s) = s) ∧
    (∀ x y, WellFormed x → toString (x ++ y) = toString x ++ toString y) ∧
    (∀ b, toString (ofString (toString b)) = toString b) ∧
    (∀ c : Char, 0x80 ≤ c.val.toNat →
      String.utf8EncodeChar c = layout (c.utf8Size - 1) c.val.toNat) ∧
    ∀ n v r, 1 ≤ n → n ≤ 5 → v < 2 ^ (5 * n + 6) → Forbidden n v →
      (∀ w, Character w → ¬w <+: layout n v ++ r) ∧
        toString (layout n v ++ r) =
          String.ofList (List.replicate (n + 1) replacement) ++ toString r := by
  refine ⟨fun b => ?_, toString_ofString, ?_, fun b => toString_ofString _,
    fun c => encodeChar_eq_layout, fun n v r h₁ h₅ hv h => ?_⟩
  · obtain ⟨ps, h⟩ := exists_cut b
    exact ⟨ps, h, fun qs h' => h'.unique_of_eq h rfl, congrArg String.ofList (decode_of_cut h)⟩
  · rintro x y ⟨cs, h⟩
    rw [h.eq_encode, toString, toString, toString, decode_encode_append, decode_encode,
      String.ofList_append]
  · obtain ⟨hn, hd⟩ := h.decode_eq h₁ h₅ hv r
    refine ⟨hn, ?_⟩
    rw [toString, hd, String.ofList_append, toString]

theorem toString_of_mixed :
    toString [0x61, 0xED, 0xA0, 0x80, 0xE2, 0x82, 0x62] =
      "a\uFFFD\uFFFD\uFFFD\uFFFDb" := by
  obtain ⟨-, -, hw, -, -, hf⟩ := toString_of_cut
  have ha : WellFormed [0x61] := ⟨['a'], .character 'a' .nil⟩
  have hs := hf 2 0xD800 [0xE2, 0x82, 0x62] (by decide) (by decide) (by decide)
    (.surrogate (by decide) (by decide))
  exact (hw [0x61] _ ha).trans (congrArg (toString [0x61] ++ ·) hs.2)

end LineLogger.Text.Utf8
