import LineLogger.Json.Typed
import LineLogger.Proofs.Json.Lexemes

namespace LineLogger.Json

open Text.Utf8 (encode)

variable {c : Char} {cs ds str w : List Char} {b : UInt8} {s r t : Bytes} {n v limit : Nat}

theorem readStringBytes_plain {bs : Bytes} (h : ∀ b ∈ bs, IsPlainByte b) (s : Bytes) :
    readStringBytes (bs ++ s) = (readStringBytes s).map (fun p => (bs ++ p.1, p.2)) := by
  induction bs with
  | nil =>
    rw [List.nil_append]
    cases readStringBytes s <;> rfl
  | cons b bs ih =>
    obtain ⟨hq, hr, hs⟩ := h b List.mem_cons_self
    rw [List.cons_append, readStringBytes, if_neg hq, if_neg hr, if_neg hs,
      ih (fun b hb => h b (List.mem_cons_of_mem _ hb))]
    cases readStringBytes s <;> rfl

theorem readStringBytes_escape {bs : Bytes} (h : readEscape s = .ok (bs, r)) :
    readStringBytes (backslash :: s) =
      (readStringBytes r).map (fun p => (bs ++ p.1, p.2)) := by
  rw [readStringBytes, if_neg (by decide), if_pos rfl]
  split
  · next hf =>
    rw [h] at hf
    cases hf
  · next ht =>
    rw [h] at ht
    cases ht
    rfl

theorem readUnicodeEscape_code (h : HexFour n cs) (hn : n < 0xD800 ∨ 0xDFFF < n) (s : Bytes) :
    readUnicodeEscape (encode cs ++ s) = .ok (.ofNat n, s) := by
  have hl : isLowSurrogate n = false := by
    simp only [isLowSurrogate, Bool.and_eq_false_iff, decide_eq_false_iff_not]
    omega
  have hh : isHighSurrogate n = false := by
    simp only [isHighSurrogate, Bool.and_eq_false_iff, decide_eq_false_iff_not]
    omega
  simp [readUnicodeEscape, h.hexFour, hl, hh]

theorem readUnicodeEscape_pair {m : Nat} (hm : HexFour m cs) (hn : HexFour n ds)
    (hh : isHighSurrogate m = true) (hl : isLowSurrogate n = true) (s : Bytes) :
    readUnicodeEscape (encode cs ++ (backslash :: letterU :: (encode ds ++ s))) =
      .ok (ofSurrogates m n, s) := by
  have hm' : isLowSurrogate m = false := by
    simp only [isHighSurrogate, isLowSurrogate, Bool.and_eq_true, decide_eq_true_eq,
      Bool.and_eq_false_iff, decide_eq_false_iff_not] at hh ⊢
    omega
  simp [readUnicodeEscape, hm.hexFour, hm', hh, readLowSurrogate, expectInEscape, hn.hexFour, hl,
    Except.map]

theorem readEscape_unicode (h : readUnicodeEscape s = .ok (c, r)) :
    readEscape (letterU :: s) = .ok (String.utf8EncodeChar c, r) := by
  have hu : plainEscape? letterU = none := by decide
  rw [readEscape, hu]
  dsimp only
  rw [if_pos rfl, h]
  rfl

theorem Spelled.readStringBytes (h : Spelled c cs) (s : Bytes) : readStringBytes (encode cs ++ s) =
    (Json.readStringBytes s).map (fun p => (String.utf8EncodeChar c ++ p.1, p.2)) := by
  cases h with
  | plain h =>
    rw [encode_cons, encode_nil, List.append_nil]
    exact readStringBytes_plain h.bytes s
  | short h =>
    obtain ⟨a, b, ha, hb, hc⟩ := escaped?_bytes h
    rw [encode_cons, encode_cons, ha, hc]
    apply readStringBytes_escape
    change readEscape (a :: s) = _
    rw [readEscape, hb]
  | code h hn => exact readStringBytes_escape (readEscape_unicode (readUnicodeEscape_code h hn s))
  | @pair m n cs ds hm hn hh hl =>
    have he : encode ('\\' :: 'u' :: cs ++ '\\' :: 'u' :: ds) ++ s =
        backslash :: letterU :: (encode cs ++ (backslash :: letterU :: (encode ds ++ s))) := by
      simp only [encode_append, encode_cons, List.append_assoc]
      rfl
    rw [he]
    exact readStringBytes_escape (readEscape_unicode (readUnicodeEscape_pair hm hn hh hl s))

theorem Written.readStringBytes (h : Written str cs) (s : Bytes) :
    readStringBytes (encode cs ++ quote :: s) = .ok (encode str, s) := by
  induction h with
  | nil => rw [encode_nil, List.nil_append, Json.readStringBytes, if_pos rfl]
  | cons h _ ih =>
    rw [encode_append, List.append_assoc, h.readStringBytes, ih]
    rfl

theorem Written.readString {x : String} (h : Written x.toList cs) (s : Bytes) :
    readString (encode cs ++ quote :: s) = .ok (x, s) := by
  rw [Json.readString, h.readStringBytes]
  change Except.ok (Text.Utf8.toString (Text.Utf8.ofString x), s) = _
  rw [Text.Utf8.toString_ofString]

/-- What digits come to behind digits that have come to `v`. -/
def valueFrom (v : Nat) (cs : List Char) : Nat :=
  cs.foldl (fun v c => 10 * v + Decimal.digitValue c) v

theorem le_valueFrom (v : Nat) (cs : List Char) : v ≤ valueFrom v cs := by
  induction cs generalizing v with
  | nil => exact Nat.le_refl v
  | cons c cs ih =>
    have h : 10 * v + Decimal.digitValue c ≤ valueFrom v (c :: cs) := ih _
    omega

theorem takeDigits_digits (h : Digits cs) (hs : NoDigit s) (hv : valueFrom v cs ≤ limit) :
    takeDigits limit v (encode cs ++ s) = (valueFrom v cs, cs.length, s) := by
  induction cs generalizing v with
  | nil =>
    cases s with
    | nil => rfl
    | cons b s =>
      have hb := hs b rfl
      simp [takeDigits, hb, valueFrom]
  | cons c cs ih =>
    obtain ⟨b, hb, hd, hv', -⟩ := isDigit_bytes (h c List.mem_cons_self)
    have hl : 10 * v + digit b ≤ limit := by
      rw [hv']
      exact Nat.le_trans (le_valueFrom _ cs) hv
    have hr := ih (v := 10 * v + digit b) (fun c hc => h c (List.mem_cons_of_mem _ hc))
      (by rw [hv']; exact hv)
    rw [encode_cons, hb, List.append_assoc, List.singleton_append, takeDigits,
      if_pos (by simp [hd, hl]), hr, hv']
    rfl

theorem readNumberEnd_ends (positive : Bool) (v : Nat) (h : Ends s) :
    readNumberEnd positive v s = .ok (integerOrFloat positive v, s) := by
  cases s with
  | nil => rfl
  | cons b s =>
    obtain ⟨hd, hp, he⟩ := endsValue_cases (h b rfl)
    simp [readNumberEnd, hd, hp, he]

theorem Whole.readUnsigned (h : Whole cs) (hv : Decimal.value cs ≤ significandLimit) (hs : Ends s)
    (positive : Bool) : readUnsigned positive (encode cs ++ s) =
      .ok (integerOrFloat positive (Decimal.value cs), s) := by
  have hr := readNumberEnd_ends positive (Decimal.value cs) hs
  cases h with
  | zero =>
    have hn := startsWithDigit_of_noDigit hs.noDigit
    rw [encode_cons_of_lt (by decide), encode_nil, List.singleton_append, Json.readUnsigned.eq_def]
    dsimp only
    rw [if_pos (by decide), if_neg (by simpa [startsWithDigit] using hn)]
    exact hr
  | @digits c cs hc h0 hd =>
    obtain ⟨b, hb, hb', hv', hz⟩ := isDigit_bytes hc
    have hd' : Decimal.value (c :: cs) = valueFrom (digit b) cs := by
      rw [hv']
      simp [Decimal.value, valueFrom]
    rw [hd'] at hr hv ⊢
    rw [encode_cons, hb, List.append_assoc, List.singleton_append, Json.readUnsigned.eq_def]
    dsimp only
    rw [if_neg (fun he => h0 (hz he)), if_pos hb', takeDigits_digits hd hs.noDigit hv]
    exact hr

inductive Literal : Int → List Char → Prop
  | natural {cs : List Char} (h : Whole cs) : Literal (Decimal.value cs) cs
  | negative {cs : List Char} (h : Whole cs) (h0 : cs ≠ ['0']) :
      Literal (-(Decimal.value cs)) ('-' :: cs)

theorem Whole.value_pos (h : Whole cs) (h0 : cs ≠ ['0']) : 0 < Decimal.value cs := by
  cases h with
  | zero => exact absurd rfl h0
  | @digits c cs hc hz hd =>
    have hp : 0 < Decimal.digitValue c := by
      have hd := forall_char_lt (p := fun c => c.isDigit = true → c ≠ '0' →
        0 < Decimal.digitValue c) (by decide) (toNat_lt_of_isDigit hc)
      exact hd hc hz
    have hv : 10 * 0 + Decimal.digitValue c ≤ Decimal.value (c :: cs) := le_valueFrom _ cs
    omega

/-- What a reader makes of a text, whatever blanks stand before it and wherever values can end
behind it. -/
def Reads {α : Type} (read : Bytes → Read α) (cs : List Char) (a : α) : Prop :=
  ∀ w s, Blanks w → Ends s → read (encode w ++ (encode cs ++ s)) = .ok (a, s)

theorem Reads.map {α β : Type} {read : Bytes → Read α} {a : α} (h : Reads read cs a) (f : α → β) :
    Reads (fun s => (read s).map (fun p => (f p.1, p.2))) cs (f a) := by
  intro w s hw hs
  dsimp only
  rw [h w s hw hs]
  rfl

theorem toInt32_integer (n : Int32) (s : Bytes) : toInt32 (.integer n.toInt) s = .ok (n, s) := by
  have hl : -Int.pow 2 31 ≤ n.toInt := n.le_toInt
  have hu : n.toInt < Int.pow 2 31 := n.toInt_lt
  rw [toInt32, if_pos ⟨hl, hu⟩, Int32.ofInt_toInt]

theorem readInt32_number (hb : skipBlank s = b :: t) (hn : startsNumber b = true) :
    readInt32 s = (readNumber (b :: t)).bind (fun p => toInt32 p.1 p.2) := by
  rw [readInt32, hb]
  dsimp only
  rw [if_pos hn]
  cases readNumber (b :: t) <;> rfl

theorem readInt32_natural (hw : Blanks w) (h : ∃ b t, encode cs = b :: t ∧ isDigit b = true)
    (s : Bytes) : readInt32 (encode w ++ (encode cs ++ s)) =
      (readUnsigned true (encode cs ++ s)).bind (fun p => toInt32 p.1 p.2) := by
  obtain ⟨b, t, he, hd⟩ := h
  have hn := isBlank_of_startsValue (startsValue_of_isDigit hd)
  have hm : b ≠ minus := by
    rintro rfl
    cases hd
  rw [he, List.cons_append, readInt32_number (skipBlank_blanks_cons hw hn _)
    (by simp [startsNumber, hd]), readNumber, if_neg hm]

theorem readInt32_negative (hw : Blanks w) (cs : List Char) (s : Bytes) :
    readInt32 (encode w ++ (encode ('-' :: cs) ++ s)) =
      (readUnsigned false (encode cs ++ s)).bind (fun p => toInt32 p.1 p.2) := by
  have hb := skipBlank_blanks_cons hw (b := minus) rfl (encode cs ++ s)
  rw [encode_cons_of_lt (by decide)]
  exact readInt32_number hb rfl

theorem Literal.reads {n : Int32} (h : Literal n.toInt cs) : Reads readInt32 cs n := by
  intro w s hw hs
  have hl : -2 ^ 31 ≤ n.toInt := n.le_toInt
  have hu : n.toInt < 2 ^ 31 := n.toInt_lt
  have ht := toInt32_integer n s
  have hlim : significandLimit = 2 ^ 64 - 1 := rfl
  generalize n.toInt = i at h hl hu ht
  cases h with
  | natural h =>
    have hr := h.readUnsigned (by omega) hs true
    have hi : integerOrFloat true (Decimal.value cs) = .integer (Decimal.value cs) := rfl
    rw [readInt32_natural hw h.start, hr, Except.bind, hi]
    exact ht
  | @negative cs h h0 =>
    have hp := h.value_pos h0
    have hi : integerOrFloat false (Decimal.value cs) = .integer (-(Decimal.value cs : Int)) := by
      have hv : Decimal.value cs ≤ Nat.pow 2 63 := by
        have : Nat.pow 2 63 = 2 ^ 63 := rfl
        omega
      simp [integerOrFloat, hp, hv]
    have hr := h.readUnsigned (by omega) hs false
    rw [readInt32_negative hw, hr, Except.bind, hi]
    exact ht

theorem readBool_true (hb : skipBlank s = 0x74 :: (restOfTrue ++ t)) :
    readBool s = .ok (true, t) := by
  rw [readBool, hb]
  rfl

theorem readBool_false (hb : skipBlank s = 0x66 :: (restOfFalse ++ t)) :
    readBool s = .ok (false, t) := by
  rw [readBool, hb]
  rfl

theorem reads_true : Reads readBool ['t', 'r', 'u', 'e'] true := by
  intro w s hw _
  exact readBool_true (skipBlank_blanks_cons hw rfl (restOfTrue ++ s))

theorem reads_false : Reads readBool ['f', 'a', 'l', 's', 'e'] false := by
  intro w s hw _
  exact readBool_false (skipBlank_blanks_cons hw rfl (restOfFalse ++ s))

theorem Written.reads {x : String} (h : Written x.toList cs) :
    Reads readText ('"' :: cs ++ ['"']) x := by
  intro w s hw _
  have he : encode ('"' :: cs ++ ['"']) ++ s = quote :: (encode cs ++ quote :: s) := by
    rw [encode_append, List.append_assoc]
    rfl
  rw [he, readText, skipBlank_blanks_cons hw rfl]
  exact h.readString s

end LineLogger.Json
