import LineLogger.Proofs.Json.Lexemes

namespace LineLogger.Json

open Text.Utf8 (encode)

variable {c : Char} {cs ds fs es w v l : List Char} {b : UInt8} {s r t : Bytes} {k : Bracket}
  {ks : List Bracket} {n : Nat} {p : Part}

theorem skipString_plain {bs : Bytes} (h : ∀ b ∈ bs, IsPlainByte b) (s : Bytes) :
    skipString (bs ++ s) = skipString s := by
  induction bs with
  | nil => rfl
  | cons b bs ih =>
    obtain ⟨hq, hr, hs⟩ := h b List.mem_cons_self
    rw [List.cons_append, skipString, if_neg hq, if_neg hr, if_neg hs]
    exact ih (fun b hb => h b (List.mem_cons_of_mem _ hb))

theorem skipString_escape (h : skipEscape s = .ok r) :
    skipString (backslash :: s) = skipString r := by
  rw [skipString, if_neg (by decide), if_pos rfl]
  split
  · next f hf =>
    rw [h] at hf
    cases hf
  · next t ht =>
    rw [h] at ht
    cases ht
    rfl

theorem Piece.skipString (h : Piece cs) (s : Bytes) :
    skipString (encode cs ++ s) = Json.skipString s := by
  cases h with
  | plain h =>
    rw [encode_cons, encode_nil, List.append_nil]
    exact skipString_plain h.bytes s
  | short h =>
    obtain ⟨a, b, ha, hb, -⟩ := escaped?_bytes h
    rw [encode_cons, encode_cons, ha]
    apply skipString_escape
    change skipEscape (a :: s) = _
    rw [skipEscape, hb]
    rfl
  | code h =>
    apply skipString_escape
    change skipEscape (letterU :: (encode _ ++ s)) = _
    rw [skipEscape, h.hexFour]
    rfl

theorem Pieces.skipString (h : Pieces cs) (s : Bytes) :
    skipString (encode cs ++ quote :: s) = .ok s := by
  induction h with
  | nil => rw [encode_nil, List.nil_append, Json.skipString, if_pos rfl]
  | cons h _ ih => rw [encode_append, List.append_assoc, h.skipString, ih]

theorem skipExponent_digits (h : Digits cs) (hn : cs ≠ []) (hs : NoDigit s) :
    (match encode cs ++ s with
      | [] => faultAt [] .invalidNumber
      | b :: r => if isDigit b then Except.ok (r.dropWhile isDigit)
        else faultAt r .invalidNumber) = .ok s := by
  cases cs with
  | nil => exact absurd rfl hn
  | cons c cs =>
    obtain ⟨b, hb, hd, -⟩ := isDigit_bytes (h c List.mem_cons_self)
    have hr := dropWhile_digits (fun c hc => h c (List.mem_cons_of_mem _ hc)) hs
    rw [encode_cons, hb]
    change (if isDigit b then Except.ok ((encode cs ++ s).dropWhile isDigit) else _) = _
    rw [if_pos hd, hr]

theorem Sign.skipExponent (h : Sign w) (hd : Digits cs) (hn : cs ≠ []) (hs : NoDigit s) :
    skipExponent (encode w ++ (encode cs ++ s)) = .ok s := by
  have hr := skipExponent_digits hd hn hs
  cases h with
  | plus => exact hr
  | minus => exact hr
  | none =>
    have hp := startsWithDigit_digits hd hn s
    rw [encode_nil, List.nil_append, Json.skipExponent.eq_def]
    -- a digit is no sign
    split
    · next t ht =>
      rw [ht] at hp
      cases hp
    · next t ht =>
      rw [ht] at hp
      cases hp
    · exact hr

theorem Exponent.skipNumberEnd (h : Exponent es) (hs : Ends s) :
    skipNumberEnd (encode es ++ s) = .ok s := by
  cases h with
  | none =>
    cases s with
    | nil => rfl
    | cons b s =>
      have hb := (endsValue_cases (hs b rfl)).2.2
      change (if isExponent b then _ else _) = _
      rw [hb]
      rfl
  | some he hw hd hn =>
    have hr := hw.skipExponent hd hn hs.noDigit
    rw [encode_append, List.append_assoc]
    rcases he with rfl | rfl <;> exact hr

theorem Exponent.noDigit (h : Exponent es) (hs : Ends s) : NoDigit (encode es ++ s) := by
  cases h with
  | none => exact hs.noDigit
  | some he => rcases he with rfl | rfl <;> rintro b ⟨⟩ <;> rfl

theorem Exponent.noPoint (h : Exponent es) (hs : Ends s) :
    ∀ b ∈ (encode es ++ s).head?, isPoint b = false := by
  cases h with
  | none => exact fun b hb => (endsValue_cases (hs b hb)).2.1
  | some he => rcases he with rfl | rfl <;> rintro b ⟨⟩ <;> rfl

theorem Fraction.noDigit (h : Fraction fs) (he : Exponent es) (hs : Ends s) :
    NoDigit (encode fs ++ (encode es ++ s)) := by
  cases h with
  | none => exact he.noDigit hs
  | some =>
    rintro b ⟨⟩
    rfl

theorem Fraction.skip (h : Fraction fs) (he : Exponent es) (hs : Ends s) :
    (match encode fs ++ (encode es ++ s) with
      | [] => Except.ok []
      | b :: r =>
        if isPoint b then
          if startsWithDigit r then Json.skipNumberEnd (r.dropWhile isDigit)
          else faultPast r .invalidNumber
        else Json.skipNumberEnd (encode fs ++ (encode es ++ s))) = .ok s := by
  have hr := he.skipNumberEnd hs
  cases h with
  | some hd hn =>
    have hp := startsWithDigit_digits hd hn (encode es ++ s)
    have hw := dropWhile_digits hd (he.noDigit hs)
    rw [encode_cons_of_lt (by decide), List.cons_append]
    change (if startsWithDigit _ then _ else _) = _
    rw [if_pos hp, hw, hr]
  | none =>
    have hp := he.noPoint hs
    rw [encode_nil, List.nil_append]
    generalize encode es ++ s = t at hr hp
    cases t with
    | nil => exact hr
    | cons b r =>
      dsimp only
      rw [hp b rfl]
      exact hr

theorem Unsigned.skipUnsigned (h : Unsigned cs) (hs : Ends s) :
    skipUnsigned (encode cs ++ s) = .ok s := by
  obtain ⟨hw, hf, he⟩ := h
  have ht := hf.skip he hs
  have hn := hf.noDigit he hs
  rw [encode_append, encode_append, List.append_assoc, List.append_assoc]
  generalize encode _ ++ (encode _ ++ s) = t at ht hn ⊢
  cases hw with
  | zero =>
    have hz := startsWithDigit_of_noDigit hn
    rw [encode_cons_of_lt (by decide), encode_nil, List.singleton_append, Json.skipUnsigned.eq_def]
    dsimp only
    rw [hz]
    exact ht
  | digits hc h0 hd =>
    obtain ⟨b, hb, hb', -, hz⟩ := isDigit_bytes hc
    have hb0 : b ≠ 0x30 := fun he => h0 (hz he)
    have hw := dropWhile_digits hd hn
    rw [encode_cons, hb, List.append_assoc, List.singleton_append, Json.skipUnsigned.eq_def]
    dsimp only
    rw [if_neg (by simp [hb0]), if_pos hb', if_neg hb0, hw]
    exact ht

theorem skipScalar_digit (h : isDigit b = true) (s : Bytes) :
    skipScalar b s = skipUnsigned (b :: s) := by
  have hn : b ≠ 0x6E ∧ b ≠ 0x74 ∧ b ≠ 0x66 ∧ b ≠ quote ∧ b ≠ minus := by
    refine ⟨?_, ?_, ?_, ?_, ?_⟩ <;> rintro rfl <;> cases h
  obtain ⟨h₁, h₂, h₃, h₄, h₅⟩ := hn
  rw [skipScalar, if_neg h₁, if_neg h₂, if_neg h₃, if_neg h₄, if_neg h₅, if_pos h]

theorem Unsigned.start (h : Unsigned cs) : ∃ b t, encode cs = b :: t ∧ isDigit b = true := by
  obtain ⟨hw, -, -⟩ := h
  obtain ⟨b, t, ht, hb⟩ := hw.start
  exact ⟨b, _, by rw [encode_append, encode_append, ht]; rfl, hb⟩

theorem Scalar.skipScalar (h : Scalar cs) (hs : Ends s) : ∃ b t, encode cs ++ s = b :: t ∧
    startsValue b = true ∧ b ≠ openBracket ∧ b ≠ openBrace ∧ skipScalar b t = .ok s := by
  cases h with
  | nullWord => exact ⟨_, _, rfl, rfl, by decide, by decide, rfl⟩
  | trueWord => exact ⟨_, _, rfl, rfl, by decide, by decide, rfl⟩
  | falseWord => exact ⟨_, _, rfl, rfl, by decide, by decide, rfl⟩
  | @string cs h =>
    refine ⟨quote, encode cs ++ quote :: s, ?_, rfl, by decide, by decide, h.skipString s⟩
    rw [encode_append, List.append_assoc]
    rfl
  | positive h =>
    obtain ⟨b, t, ht, hb⟩ := h.start
    refine ⟨b, t ++ s, by rw [ht]; rfl, startsValue_of_isDigit hb, ?_, ?_, ?_⟩
    · rintro rfl
      cases hb
    · rintro rfl
      cases hb
    · have hr := h.skipUnsigned hs
      rw [ht] at hr
      exact (skipScalar_digit hb _).trans hr
  | negative h => exact ⟨minus, _, rfl, rfl, by decide, by decide, h.skipUnsigned hs⟩

theorem Derives.start (h : Derives .value v) :
    ∃ b t, encode v = b :: t ∧ startsValue b = true := by
  cases h with
  | scalar h =>
    obtain ⟨b, t, ht, hb, -⟩ := h.skipScalar ends_nil
    rw [List.append_nil] at ht
    exact ⟨b, t, ht, hb⟩
  | nested k => cases k <;> exact ⟨_, _, rfl, rfl⟩

theorem skip_value (ks : List Bracket) (s : Bytes) : skip .value ks s =
    match skipBlank s with
    | [] => faultPast [] .endInValue
    | b :: r =>
      if b = openBracket then skip .opened (.list :: ks) r
      else if b = openBrace then skip .opened (.object :: ks) r
      else (skipScalar b r).bind (skip .behind ks) := by
  rw [skip]
  split
  · next h => rw [h]
  · next b r h =>
    dsimp only
    rw [h]
    dsimp only
    split_ifs
    · rfl
    · rfl
    · split
      · next h => rw [h]; rfl
      · next h => rw [h]; rfl

theorem skip_opened (k : Bracket) (ks : List Bracket) (s : Bytes) : skip .opened (k :: ks) s =
    match skipBlank s with
    | [] => faultPast [] k.ended
    | b :: r =>
      if b = k.close then skip .behind ks r
      else (k.skipLabel (b :: r)).bind (skip .value (k :: ks)) := by
  rw [skip]
  split
  · next h => rw [h]
  · next b r h =>
    dsimp only
    rw [h]
    dsimp only
    split_ifs
    · rfl
    · split
      · next h => rw [h]; rfl
      · next h => rw [h]; rfl

theorem skip_behind (k : Bracket) (ks : List Bracket) (s : Bytes) : skip .behind (k :: ks) s =
    match skipBlank s with
    | [] => faultPast [] k.ended
    | b :: r =>
      if b = comma then (k.skipLabel r).bind (skip .value (k :: ks))
      else if b = k.close then skip .behind ks r
      else faultPast (b :: r) k.separator := by
  rw [skip]
  split
  · next h => rw [h]
  · next b r h =>
    dsimp only
    rw [h]
    dsimp only
    split_ifs
    · split
      · next h => rw [h]; rfl
      · next h => rw [h]; rfl
    · rfl
    · rfl

theorem skip_behind_nil (s : Bytes) : skip .behind [] s = .ok s := by rw [skip]

theorem encode_closing (k : Bracket) : encode [k.closing] = [k.close] := by cases k <;> rfl

theorem isBlank_close (k : Bracket) : isBlank k.close = false := by cases k <;> rfl

theorem endsValue_close (k : Bracket) : endsValue k.close = true := by cases k <;> rfl

theorem encode_key (w cs w' : List Char) (s : Bytes) :
    encode (w ++ '"' :: cs ++ '"' :: w' ++ [':']) ++ s =
      encode w ++ quote :: (encode cs ++ quote :: (encode w' ++ colon :: s)) := by
  simp only [encode_append, encode_cons, List.append_assoc]
  rfl

theorem skipKey_pieces {w' : List Char} (hw : Blanks w) (h : Pieces cs) (hw' : Blanks w')
    (s : Bytes) :
    skipKey (encode w ++ quote :: (encode cs ++ quote :: (encode w' ++ colon :: s))) = .ok s := by
  have hb : skipBlank (encode w' ++ colon :: s) = colon :: s := skipBlank_blanks_cons hw' rfl s
  rw [skipKey, skipBlank_blanks_cons hw rfl]
  dsimp only
  rw [if_pos rfl, h.skipString]
  dsimp only
  rw [hb]
  rfl

theorem skipBlank_value (hw : Blanks w) (h : Derives .value v) (s : Bytes) :
    skipBlank (encode w ++ (encode v ++ s)) = encode v ++ s := by
  obtain ⟨b, t, ht, hb⟩ := h.start
  rw [ht]
  exact skipBlank_blanks_cons hw (isBlank_of_startsValue hb) _

theorem Derives.ends_behind {cs : List Char} (h : Derives (.behind k) cs) (s : Bytes) :
    Ends (encode cs ++ s) := by
  cases h with
  | last k hw =>
    rw [encode_append, List.append_assoc, encode_closing]
    exact ends_blanks hw (ends_cons (endsValue_close k) s)
  | more hw =>
    rw [List.append_assoc, List.append_assoc, List.append_assoc, encode_append, List.append_assoc]
    exact ends_blanks hw (ends_cons rfl _)

theorem Label.skipLabel (h : Label k l) (s : Bytes) : k.skipLabel (encode l ++ s) = .ok s := by
  cases h with
  | none => rfl
  | key h hl =>
    obtain ⟨hw, hw'⟩ := hl
    rw [encode_key]
    exact skipKey_pieces hw h hw' s

theorem Label.skipLabel_first (h : Label k l) (hw : Blanks w) (hv : Derives .value v) (s : Bytes) :
    ∃ b r w', skipBlank (encode l ++ (encode w ++ (encode v ++ s))) = b :: r ∧ b ≠ k.close ∧
      Blanks w' ∧ k.skipLabel (b :: r) = .ok (encode w' ++ (encode v ++ s)) := by
  cases h with
  | none =>
    obtain ⟨b, t, ht, hb⟩ := hv.start
    refine ⟨b, t ++ s, [], ?_, ne_of_startsValue hb .list, nofun, ?_⟩
    · rw [encode_nil, List.nil_append, skipBlank_value hw hv, ht]
      rfl
    · rw [ht]
      rfl
  | key h hl =>
    obtain ⟨hu, hu'⟩ := hl
    refine ⟨quote, _, w, ?_, by decide, hw, skipKey_pieces blanks_nil h hu' _⟩
    rw [encode_key]
    exact skipBlank_blanks_cons hu rfl _

/-- What passing over a part of a value comes to, whatever brackets are open around it. -/
def Skips (cs : List Char) : Part → Prop
  | .value => ∀ w ks s, Blanks w → Ends s →
    skip .value ks (encode w ++ (encode cs ++ s)) = skip .behind ks s
  | .opened k => ∀ ks s, skip .opened (k :: ks) (encode cs ++ s) = skip .behind ks s
  | .behind k => ∀ ks s, skip .behind (k :: ks) (encode cs ++ s) = skip .behind ks s

theorem Derives.skips (h : Derives p cs) : Skips cs p := by
  induction h with
  | scalar h =>
    intro w ks s hw hs
    obtain ⟨b, t, ht, hb, hl, ho, hr⟩ := h.skipScalar hs
    rw [skip_value, ht, skipBlank_blanks_cons hw (isBlank_of_startsValue hb)]
    dsimp only
    rw [if_neg hl, if_neg ho, hr]
    rfl
  | nested k h ih =>
    intro w ks s hw hs
    have hr := ih ks s
    rw [skip_value, skipBlank_value hw (.nested k h)]
    cases k <;> exact hr
  | empty k hw =>
    intro ks s
    rw [skip_opened, encode_append, List.append_assoc, encode_closing, List.singleton_append,
      skipBlank_blanks_cons hw (isBlank_close k)]
    exact if_pos rfl
  | @first k l w v t hl hw hv ht ihv iht =>
    intro ks s
    obtain ⟨b, r, w', hb, hk, hw', hr⟩ := hl.skipLabel_first hw hv (encode t ++ s)
    rw [encode_append, encode_append, encode_append, List.append_assoc, List.append_assoc,
      List.append_assoc, skip_opened, hb]
    dsimp only
    rw [if_neg hk, hr]
    exact (ihv w' (k :: ks) _ hw' (ht.ends_behind s)).trans (iht ks s)
  | last k hw =>
    intro ks s
    rw [skip_behind, encode_append, List.append_assoc, encode_closing, List.singleton_append,
      skipBlank_blanks_cons hw (isBlank_close k)]
    cases k <;> rfl
  | @more k w l w' v t hw hl hw' hv ht ihv iht =>
    intro ks s
    have he : encode (w ++ ',' :: l ++ w' ++ v ++ t) ++ s =
        encode w ++ comma :: (encode l ++ (encode w' ++ (encode v ++ (encode t ++ s)))) := by
      simp only [encode_append, encode_cons, List.append_assoc]
      rfl
    rw [he, skip_behind, skipBlank_blanks_cons hw rfl]
    dsimp only
    rw [if_pos rfl, hl.skipLabel]
    exact (ihv w' (k :: ks) _ hw' (ht.ends_behind s)).trans (iht ks s)

/-- A value is passed over up to its last byte, whatever it holds. -/
theorem skipValue_value (hw : Blanks w) (hv : Derives .value v) (hs : Ends s) :
    skipValue (encode w ++ (encode v ++ s)) = .ok s :=
  (hv.skips w [] s hw hs).trans (skip_behind_nil s)

end LineLogger.Json
