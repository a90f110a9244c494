import LineLogger.Proofs.Json.Grammar
import Mathlib.Tactic.SplitIfs

namespace LineLogger.Json

open Text.Utf8 (encode)

variable {c : Char} {cs ds w v : List Char} {b : UInt8} {s r t : Bytes} {k : Bracket}
  {ks : List Bracket} {n : Nat}

@[simp]
theorem encode_nil : encode [] = [] := rfl

@[simp]
theorem encode_append (cs ds : List Char) : encode (cs ++ ds) = encode cs ++ encode ds :=
  List.flatMap_append

theorem encode_cons (c : Char) (cs : List Char) :
    encode (c :: cs) = String.utf8EncodeChar c ++ encode cs := List.flatMap_cons

theorem encodeChar_of_lt (h : c.toNat < 0x80) :
    String.utf8EncodeChar c = [UInt8.ofNat c.toNat] := by
  have hc : c.val.toNat ≤ 0x7F := Nat.le_of_lt_succ h
  simp only [String.utf8EncodeChar, hc, if_true]
  rfl

theorem encode_cons_of_lt (h : c.toNat < 0x80) (cs : List Char) :
    encode (c :: cs) = UInt8.ofNat c.toNat :: encode cs := by
  rw [encode_cons, encodeChar_of_lt h]
  rfl

theorem le_of_mem_encodeChar (h : 0x80 ≤ c.toNat) (hb : b ∈ String.utf8EncodeChar c) :
    0x80 ≤ b.toNat := by
  have hc : c.val.toNat < 0xD800 ∨ 0xDFFF < c.val.toNat ∧ c.val.toNat < 0x110000 := c.valid
  have hm : ∀ n, 0x80 ≤ n → n < 0x100 → b = UInt8.ofNat n → 0x80 ≤ b.toNat := by
    rintro n hn hn' rfl
    rwa [Text.Utf8.toNat_ofNat_of_lt hn']
  revert hb
  fun_cases String.utf8EncodeChar with
  | case1 v hv =>
    intro
    exact absurd h (Nat.not_le_of_lt (Nat.lt_succ_of_le hv))
  | case2 v hv hv' =>
    intro hb
    simp only [List.mem_cons, List.not_mem_nil, or_false] at hb
    rcases hb with hb | hb <;> exact hm _ (by omega) (by omega) hb
  | case3 v hv hv' hv'' =>
    intro hb
    simp only [List.mem_cons, List.not_mem_nil, or_false] at hb
    rcases hb with hb | hb | hb <;> exact hm _ (by omega) (by omega) hb
  | case4 v hv hv' hv'' =>
    intro hb
    simp only [List.mem_cons, List.not_mem_nil, or_false] at hb
    rcases hb with hb | hb | hb | hb <;> exact hm _ (by omega) (by omega) hb

theorem forall_char_lt {p : Char → Prop} {k : Nat} (h : ∀ m < k, p (.ofNat m)) (hc : c.toNat < k) :
    p c := by
  have hm := h _ hc
  rwa [Char.ofNat_toNat] at hm

def IsPlainByte (b : UInt8) : Prop := b ≠ quote ∧ b ≠ backslash ∧ ¬b < 0x20

theorem IsPlain.bytes (h : IsPlain c) : ∀ b ∈ String.utf8EncodeChar c, IsPlainByte b := by
  intro b hb
  obtain ⟨hs, hq, hr⟩ := h
  have hn : 0x20 ≤ b.toNat ∧ b.toNat ≠ 0x22 ∧ b.toNat ≠ 0x5C := by
    rcases Nat.lt_or_ge c.toNat 0x80 with hc | hc
    · rw [encodeChar_of_lt hc, List.mem_singleton] at hb
      rw [hb, Text.Utf8.toNat_ofNat_of_lt (by omega)]
      exact ⟨hs, fun he => hq (Char.toNat_inj.mp he), fun he => hr (Char.toNat_inj.mp he)⟩
    · have := le_of_mem_encodeChar hc hb
      omega
  obtain ⟨hs, hq, hr⟩ := hn
  refine ⟨fun he => hq (congrArg UInt8.toNat he), fun he => hr (congrArg UInt8.toNat he), ?_⟩
  rw [UInt8.lt_iff_toNat_lt]
  exact Nat.not_lt.mpr hs

theorem escaped?_bytes {e : Char} (h : escaped? e = some c) : ∃ a b,
    String.utf8EncodeChar e = [a] ∧ plainEscape? a = some b ∧ String.utf8EncodeChar c = [b] := by
  unfold escaped? at h
  split at h <;> cases h <;> exact ⟨_, _, rfl, rfl, rfl⟩

theorem hexValue?_bytes (h : hexValue? c = some n) :
    ∃ b, String.utf8EncodeChar c = [b] ∧ hexDigit? b = some n := by
  have hc : c.toNat < 0x80 := by
    unfold hexValue? at h
    simp only [Char.le_def, UInt32.le_iff_toNat_le] at h
    change (if 48 ≤ c.toNat ∧ c.toNat ≤ 57 then _ else if 97 ≤ c.toNat ∧ c.toNat ≤ 102 then _ else
      if 65 ≤ c.toNat ∧ c.toNat ≤ 70 then _ else _) = _ at h
    split_ifs at h <;> omega
  have hd := forall_char_lt (p := fun c => hexDigit? (.ofNat c.toNat) = hexValue? c) (by decide) hc
  exact ⟨_, encodeChar_of_lt hc, hd.trans h⟩

theorem HexFour.hexFour (h : HexFour n cs) (s : Bytes) : hexFour (encode cs ++ s) = .ok (n, s) := by
  obtain ⟨ha, hb, hc, hd⟩ := h
  obtain ⟨a, ha, ha'⟩ := hexValue?_bytes ha
  obtain ⟨b, hb, hb'⟩ := hexValue?_bytes hb
  obtain ⟨c, hc, hc'⟩ := hexValue?_bytes hc
  obtain ⟨d, hd, hd'⟩ := hexValue?_bytes hd
  simp only [encode_cons, ha, hb, hc, hd, encode_nil, List.cons_append, List.nil_append,
    Json.hexFour, ha', hb', hc', hd']

theorem blanks_nil : Blanks [] := nofun

theorem encode_blanks (h : Blanks w) : ∀ b ∈ encode w, isBlank b = true := by
  intro b hb
  obtain ⟨c, hc, hb⟩ := List.mem_flatMap.mp hb
  rcases h c hc with rfl | rfl | rfl | rfl <;> cases List.mem_singleton.mp hb <;> rfl

theorem skipBlank_blanks (h : Blanks w) (s : Bytes) : skipBlank (encode w ++ s) = skipBlank s :=
  List.dropWhile_append_of_pos (encode_blanks h)

theorem skipBlank_cons (h : isBlank b = false) (s : Bytes) : skipBlank (b :: s) = b :: s := by
  rw [skipBlank, List.dropWhile_cons, h]
  rfl

theorem skipBlank_blanks_cons (h : Blanks w) (hb : isBlank b = false) (s : Bytes) :
    skipBlank (encode w ++ b :: s) = b :: s := by
  rw [skipBlank_blanks h, skipBlank_cons hb]

def endsValue (b : UInt8) : Bool :=
  isBlank b || b == comma || b == closeBracket || b == closeBrace

/-- Whether a value can end before these bytes. -/
def Ends (s : Bytes) : Prop := ∀ b ∈ s.head?, endsValue b = true

def NoDigit (s : Bytes) : Prop := ∀ b ∈ s.head?, isDigit b = false

theorem endsValue_cases (h : endsValue b = true) : isDigit b = false ∧ isPoint b = false ∧
    isExponent b = false := by
  simp only [endsValue, isBlank, Bool.or_eq_true, beq_iff_eq] at h
  rcases h with (((((rfl | rfl) | rfl) | rfl) | rfl) | rfl) | rfl <;> decide

theorem Ends.noDigit (h : Ends s) : NoDigit s := fun b hb => (endsValue_cases (h b hb)).1

theorem ends_nil : Ends [] := fun _ hb => by cases hb

theorem ends_cons (h : endsValue b = true) (s : Bytes) : Ends (b :: s) := by
  rintro c ⟨⟩
  exact h

theorem ends_blanks (h : Blanks w) (hs : Ends s) : Ends (encode w ++ s) := by
  cases hw : encode w with
  | nil => exact hs
  | cons b bs =>
    have hb : isBlank b = true := encode_blanks h b (by rw [hw]; exact List.mem_cons_self)
    apply ends_cons
    simp [endsValue, hb]

def startsValue (b : UInt8) : Bool :=
  b == openBracket || b == openBrace || b == quote || b == minus || isDigit b || b == 0x6E ||
    b == 0x74 || b == 0x66

theorem startsValue_of_isDigit (h : isDigit b = true) : startsValue b = true := by
  simp [startsValue, h]

theorem isBlank_of_startsValue (h : startsValue b = true) : isBlank b = false := by
  cases hb : isBlank b with
  | false => rfl
  | true =>
    simp only [isBlank, Bool.or_eq_true, beq_iff_eq] at hb
    rcases hb with ((rfl | rfl) | rfl) | rfl <;> cases h

theorem ne_of_startsValue (h : startsValue b = true) (k : Bracket) : b ≠ k.close := by
  rintro rfl
  cases k <;> cases h

theorem toNat_lt_of_isDigit (h : c.isDigit = true) : c.toNat < 0x80 := by
  simp only [Char.isDigit, Bool.and_eq_true, decide_eq_true_eq, ge_iff_le,
    UInt32.le_iff_toNat_le] at h
  change 48 ≤ c.toNat ∧ c.toNat ≤ 57 at h
  omega

theorem isDigit_bytes (h : c.isDigit = true) : ∃ b, String.utf8EncodeChar c = [b] ∧
    isDigit b = true ∧ digit b = Decimal.digitValue c ∧ (b = 0x30 → c = '0') := by
  have hc := toNat_lt_of_isDigit h
  have hd := forall_char_lt (p := fun c => c.isDigit = true →
    isDigit (.ofNat c.toNat) = true ∧ digit (.ofNat c.toNat) = Decimal.digitValue c ∧
      (UInt8.ofNat c.toNat = 0x30 → c = '0')) (by decide) hc
  exact ⟨_, encodeChar_of_lt hc, hd h⟩

theorem dropWhile_digits (h : Digits cs) (hs : NoDigit s) :
    (encode cs ++ s).dropWhile isDigit = s := by
  induction cs with
  | nil =>
    cases s with
    | nil => rfl
    | cons b s => exact List.dropWhile_cons_of_neg (by simp [hs b rfl])
  | cons c cs ih =>
    obtain ⟨b, hb, hd, -⟩ := isDigit_bytes (h c List.mem_cons_self)
    rw [encode_cons, hb, List.append_assoc]
    exact (List.dropWhile_cons_of_pos hd).trans (ih (fun c hc => h c (List.mem_cons_of_mem _ hc)))

theorem startsWithDigit_digits (h : Digits cs) (hn : cs ≠ []) (s : Bytes) :
    startsWithDigit (encode cs ++ s) = true := by
  cases cs with
  | nil => exact absurd rfl hn
  | cons c cs =>
    obtain ⟨b, hb, hd, -⟩ := isDigit_bytes (h c List.mem_cons_self)
    rw [encode_cons, hb]
    exact hd

theorem startsWithDigit_of_noDigit (h : NoDigit s) : startsWithDigit s = false := by
  cases s with
  | nil => rfl
  | cons b s => exact h b rfl

theorem Whole.start (h : Whole cs) : ∃ b t, encode cs = b :: t ∧ isDigit b = true := by
  cases h with
  | zero => exact ⟨_, _, rfl, rfl⟩
  | digits hc =>
    obtain ⟨b, hb, hd, -⟩ := isDigit_bytes hc
    exact ⟨b, _, by rw [encode_cons, hb]; rfl, hd⟩

end LineLogger.Json
