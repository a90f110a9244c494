import LineLogger.Proofs.Documents

namespace LineLogger

open Json
open Text.Utf8 (encode)

namespace Json

variable {positive up : Bool} {m v limit : Nat} {e : Int} {x : Number} {n : Int32}
  {cs fs es w : List Char} {b : UInt8} {s r t : Bytes}

theorem float_of_readScaled (h : readScaled positive m e s = .ok (x, r)) : ∃ y, x = .float y := by
  rw [readScaled] at h
  split at h
  · cases h
    exact ⟨_, rfl⟩
  · cases h

theorem float_of_readExponentDigits (h : readExponentDigits positive m e up s = .ok (x, r)) :
    ∃ y, x = .float y := by
  rw [readExponentDigits.eq_def] at h
  split at h
  · cases h
  · split at h
    · split at h
      split at h
      · split at h
        · split at h
          · cases h
          · cases h
            exact ⟨_, rfl⟩
        · exact float_of_readScaled h
      · exact float_of_readScaled h
    · cases h

theorem float_of_readExponent (h : readExponent positive m e s = .ok (x, r)) :
    ∃ y, x = .float y := by
  rw [readExponent.eq_def] at h
  split at h <;> exact float_of_readExponentDigits h

theorem float_of_readFloatEnd (h : readFloatEnd positive m e s = .ok (x, r)) :
    ∃ y, x = .float y := by
  rw [readFloatEnd.eq_def] at h
  split at h
  · split at h
    · exact float_of_readExponent h
    · exact float_of_readScaled h
  · exact float_of_readScaled h

theorem float_of_readFraction (h : readFraction positive m e s = .ok (x, r)) :
    ∃ y, x = .float y := by
  rw [readFraction.eq_def] at h
  split at h
  · cases h
  · split at h
    · split at h
      exact float_of_readFloatEnd h
    · cases h

/-- Where an integer ends: before anything but a digit, a point or an exponent. -/
def EndsInteger (s : Bytes) : Prop :=
  ∀ b ∈ s.head?, isDigit b = false ∧ isPoint b = false ∧ isExponent b = false

theorem readNumberEnd_cases (h : readNumberEnd positive v s = .ok (x, r)) :
    (∃ y, x = .float y) ∨ x = integerOrFloat positive v ∧ r = s ∧ EndsInteger s := by
  rw [readNumberEnd] at h
  have hs := List.takeWhile_append_dropWhile (p := isDigit) (l := s)
  split at h
  · next b t hb =>
    have hd := List.head?_dropWhile_not isDigit s
    rw [hb] at h hs hd
    split at h
    · exact .inl (float_of_readFraction h)
    · next hp =>
      split at h
      · exact .inl (float_of_readExponent h)
      · next he =>
        split at h
        · next h0 =>
          cases h
          rw [List.length_eq_zero_iff.mp h0, List.nil_append] at hs
          refine .inr ⟨rfl, hs, ?_⟩
          rw [← hs]
          rintro c ⟨⟩
          exact ⟨by simpa using hd, by simpa using hp, by simpa using he⟩
        · exact .inl (float_of_readScaled h)
  · next hb =>
    rw [hb] at h hs
    split at h
    · next h0 =>
      cases h
      rw [List.length_eq_zero_iff.mp h0] at hs
      refine .inr ⟨rfl, hs, ?_⟩
      rw [← hs]
      rintro c ⟨⟩
    · exact .inl (float_of_readScaled h)

theorem startsWithDigit_takeDigits (h : Digits cs) (hv : v ≤ limit)
    (hl : limit < valueFrom v cs) (s : Bytes) :
    startsWithDigit (takeDigits limit v (encode cs ++ s)).2.2 = true := by
  induction cs generalizing v with
  | nil => exact absurd hl (Nat.not_lt.mpr hv)
  | cons c cs ih =>
    obtain ⟨b, hb, hd, hv', -⟩ := isDigit_bytes (h c List.mem_cons_self)
    rw [encode_cons, hb, List.append_assoc, List.singleton_append, takeDigits]
    split
    · next ht =>
      rw [Bool.and_eq_true, decide_eq_true_eq] at ht
      rw [hv'] at ht ⊢
      exact ih (fun c hc => h c (List.mem_cons_of_mem _ hc)) ht.2 hl
    · exact hd

/-- The digits of an integer are read as its value. If that does not fit the significand, the number
is a float. -/
theorem Whole.readUnsigned_cases (h : Whole cs) (hs : NoDigit s)
    (hr : Json.readUnsigned positive (encode cs ++ s) = .ok (x, r)) :
    (∃ y, x = .float y) ∨
      x = integerOrFloat positive (Decimal.value cs) ∧ r = s ∧ EndsInteger s := by
  cases h with
  | zero =>
    have hn := startsWithDigit_of_noDigit hs
    rw [encode_cons_of_lt (by decide), encode_nil, List.singleton_append,
      Json.readUnsigned.eq_def] at hr
    dsimp only at hr
    rw [if_pos (by decide), if_neg (by simpa [startsWithDigit] using hn)] at hr
    exact readNumberEnd_cases hr
  | @digits c cs hc h0 hd =>
    obtain ⟨b, hb, hb', hv', hz⟩ := isDigit_bytes hc
    have hv : Decimal.value (c :: cs) = valueFrom (digit b) cs := by
      rw [hv']
      simp [Decimal.value, valueFrom]
    rw [encode_cons, hb, List.append_assoc, List.singleton_append, Json.readUnsigned.eq_def] at hr
    dsimp only at hr
    rw [if_neg (fun he => h0 (hz he)), if_pos hb'] at hr
    rw [hv]
    by_cases hl : valueFrom (digit b) cs ≤ significandLimit
    · rw [takeDigits_digits hd hs hl] at hr
      exact readNumberEnd_cases hr
    -- Too large for the significand: a digit is left over, and no integer ends before a digit.
    · have hd9 : digit b ≤ significandLimit := by
        have hb := b.toNat_lt
        have hlim : significandLimit = 2 ^ 64 - 1 := rfl
        rw [digit]
        omega
      have ht := startsWithDigit_takeDigits hd hd9 (Nat.lt_of_not_le hl) s
      obtain hf | ⟨-, -, he⟩ := readNumberEnd_cases hr
      · exact .inl hf
      · generalize (takeDigits significandLimit (digit b) (encode cs ++ s)).2.2 = t at ht he
        cases t with
        | nil => cases ht
        | cons c t => exact absurd ((he c rfl).1.symm.trans ht) (by decide)

def signedValue (positive : Bool) (v : Nat) : Int := if positive then v else -v

theorem toInt_of_toInt32 {i : Int} (h : toInt32 (.integer i) s = .ok (n, r)) : n.toInt = i := by
  rw [toInt32] at h
  split at h
  · next hi =>
    cases h
    exact Int32.toInt_ofInt_of_le hi.1 hi.2
  · cases h

theorem integerOrFloat_cases (positive : Bool) (v : Nat) :
    integerOrFloat positive v = .integer (signedValue positive v) ∨
      ∃ y, integerOrFloat positive v = .float y := by
  rw [integerOrFloat, signedValue]
  split
  · exact .inl rfl
  · split
    · exact .inl rfl
    · exact .inr ⟨_, rfl⟩

theorem signedValue_of_toInt32 (h : toInt32 (integerOrFloat positive v) s = .ok (n, r)) :
    n.toInt = signedValue positive v := by
  obtain he | ⟨y, he⟩ := integerOrFloat_cases positive v
  · rw [he] at h
    exact toInt_of_toInt32 h
  · rw [he] at h
    cases h

theorem Whole.of_toInt32 (h : Whole cs) (hs : NoDigit s)
    (hr : (Json.readUnsigned positive (encode cs ++ s)).bind (fun p => toInt32 p.1 p.2) =
      .ok (n, r)) : n.toInt = signedValue positive (Decimal.value cs) ∧ EndsInteger s := by
  cases hu : Json.readUnsigned positive (encode cs ++ s) with
  | error e =>
    rw [hu] at hr
    cases hr
  | ok p =>
    obtain ⟨x, t⟩ := p
    rw [hu] at hr
    change toInt32 x t = _ at hr
    obtain ⟨y, rfl⟩ | ⟨rfl, -, he⟩ := h.readUnsigned_cases hs hu
    · cases hr
    · exact ⟨signedValue_of_toInt32 hr, he⟩

/-- A reader that makes nothing of a text, whatever blanks stand before it and wherever values can
end behind it. -/
def Refuses {α : Type} (read : Bytes → Read α) (cs : List Char) : Prop :=
  ∀ w s, Blanks w → Ends s → ∃ e, read (encode w ++ (encode cs ++ s)) = .error e

theorem refuses_of_ne_ok {α : Type} {read : Bytes → Read α}
    (h : ∀ w s p, Blanks w → Ends s → read (encode w ++ (encode cs ++ s)) ≠ .ok p) :
    Refuses read cs := by
  intro w s hw hs
  cases hr : read (encode w ++ (encode cs ++ s)) with
  | error e => exact ⟨e, rfl⟩
  | ok p => exact absurd hr (h w s p hw hs)

theorem Refuses.map {α β : Type} {read : Bytes → Read α} (h : Refuses read cs)
    (f : α × Bytes → β × Bytes) : Refuses (fun s => (read s).map f) cs := by
  intro w s hw hs
  obtain ⟨e, he⟩ := h w s hw hs
  refine ⟨e, ?_⟩
  dsimp only
  rw [he]
  rfl

theorem Literal.refused {i : Int} (h : Literal i cs) (hi : i < -2147483648 ∨ 2147483647 < i) :
    Refuses readInt32 cs := by
  refine refuses_of_ne_ok fun w s p hw hs hr => ?_
  have hl : -2147483648 ≤ p.1.toInt := p.1.le_toInt
  have hu : p.1.toInt < 2147483648 := p.1.toInt_lt
  have hp : p.1.toInt = i := by
    cases h with
    | natural h =>
      rw [readInt32_natural hw h.start] at hr
      exact (h.of_toInt32 hs.noDigit hr).1
    | negative h h0 =>
      rw [readInt32_negative hw] at hr
      exact (h.of_toInt32 hs.noDigit hr).1
  omega

inductive Fractional : List Char → Prop
  | positive {cs fs es : List Char} (h : Whole cs) (hf : Fraction fs) (he : Exponent es)
      (hn : fs ++ es ≠ []) : Fractional (cs ++ (fs ++ es))
  | negative {cs fs es : List Char} (h : Whole cs) (hf : Fraction fs) (he : Exponent es)
      (hn : fs ++ es ≠ []) : Fractional ('-' :: (cs ++ (fs ++ es)))

theorem not_endsInteger (hf : Fraction fs) (he : Exponent es) (hn : fs ++ es ≠ []) (s : Bytes) :
    ¬EndsInteger (encode (fs ++ es) ++ s) := by
  intro h
  cases hf with
  | some hd hne => exact absurd (h _ rfl).2.1 (by decide)
  | none =>
    cases he with
    | none => exact hn rfl
    | some he hs hd hne =>
      obtain rfl | rfl := he
      · exact absurd (h _ rfl).2.2 (by decide)
      · exact absurd (h _ rfl).2.2 (by decide)

theorem noDigit_fractional (hf : Fraction fs) (he : Exponent es) (hs : Ends s) :
    NoDigit (encode (fs ++ es) ++ s) := by
  rw [encode_append, List.append_assoc]
  exact hf.noDigit he hs

theorem Fractional.refused (h : Fractional cs) : Refuses readInt32 cs := by
  refine refuses_of_ne_ok fun w s p hw hs hr => ?_
  cases h with
  | positive h hf he hn =>
    rw [encode_append, List.append_assoc, readInt32_natural hw h.start] at hr
    exact not_endsInteger hf he hn s (h.of_toInt32 (noDigit_fractional hf he hs) hr).2
  | negative h hf he hn =>
    rw [readInt32_negative hw, encode_append, List.append_assoc] at hr
    exact not_endsInteger hf he hn s (h.of_toInt32 (noDigit_fractional hf he hs) hr).2

section Records

variable {ρ : Type} {fields : List (Member ρ)} {f : Member ρ} {key text : String} {p : Pair}
  {ps : List Pair}

theorem Refuses.of {α : Type} {read : Bytes → Read α} (h : Refuses read cs) (key : String)
    (hs : Shortens read) (set : α → ρ → ρ) : Refuses (Member.of key read hs set).read cs :=
  h.map _

theorem Refuses.record (h : Refuses f.read p.2) (hm : Members true (p :: ps) cs)
    (hk : Written key.toList p.1) (hf : fields.find? (fun f => f.key == key) = some f) (x : ρ)
    (name : String) : Refuses (readRecord name fields x) ('\x7b' :: cs) := by
  intro w s hw hs
  obtain ⟨u, w', t, hu, hw', ht, hnext⟩ := hm.nextKey_cons s
  obtain ⟨e, he⟩ := h w' (encode t ++ s) hw' (ht.ends s)
  refine ⟨e, ?_⟩
  rw [readRecord_object hw, readMembers_eq, hnext]
  dsimp only
  rw [hk.readString]
  change (readMember _ _ _ _).bind _ = _
  rw [readMember, hf]
  dsimp only
  rw [if_neg (by simp), readColon_blanks hu]
  dsimp only
  rw [he]
  rfl

theorem Refuses.document {α : Type} {read : Bytes → Read α} {w' : List Char}
    (h : Refuses read cs) (hw : Blanks w) (hw' : Blanks w') (ht : text.toList = w ++ cs ++ w') :
    ∃ e, document read text = .error e := by
  obtain ⟨e, he⟩ := h w (encode w') hw hw'.ends
  rw [Json.document, ofString_of_toList ht, he]
  exact ⟨_, rfl⟩

end Records

end Json

namespace Config

variable {cs : List Char} {n : Int32}

/-- The document that gives a level and nothing else. -/
def levelDocument (cs : List Char) : String :=
  "\x7b\"verbosity\":\x7b\"level\":" ++ String.ofList cs ++ "\x7d\x7d"

def onlyMember (key cs : List Char) : List Char := '"' :: key ++ ['"', ':'] ++ cs ++ ['\x7d']

theorem members_onlyMember (key cs : List Char) :
    Members true [(key, cs)] (onlyMember key cs) := by
  have h := Members.first (m := (key, cs)) (.mk blanks_nil blanks_nil) blanks_nil
    (.last false blanks_nil)
  simpa [onlyMember] using h

def levelObject (cs : List Char) : List Char := '\x7b' :: onlyMember "level".toList cs

theorem toList_levelDocument (cs : List Char) : (levelDocument cs).toList =
    [] ++ '\x7b' :: onlyMember "verbosity".toList (levelObject cs) ++ [] := by
  unfold levelDocument
  simp [levelObject, onlyMember]

theorem document_level (h : Literal n.toInt cs) :
    Document [.verbosity [.level n]] (levelDocument cs) := by
  have hl : Verbosity.Entry.Spells (.level n) ("level".toList, cs) := .level (.plain (by decide)) h
  have hv : Entry.Spells (.verbosity [.level n]) ("verbosity".toList, levelObject cs) :=
    .verbosity (.plain (by decide)) (.mk (members_onlyMember _ cs) (.cons hl .nil))
      (List.nodup_singleton "level")
  have ho : Object Entry.Spells [.verbosity [.level n]] _ :=
    .mk (members_onlyMember "verbosity".toList (levelObject cs)) (.cons hv .nil)
  exact .mk blanks_nil blanks_nil ho (List.nodup_singleton "verbosity") (toList_levelDocument cs)

theorem ofJson_level (h : Literal n.toInt cs) :
    ofJson (levelDocument cs) = .ok { verbosity := { level := n } } := (document_level h).ofJson.1

theorem load_refused (h : Refuses readInt32 cs) :
    ∃ e, load (levelDocument cs) = .error (.json e) := by
  have hkl : Written "level".toList "level".toList := .plain (by decide)
  have hkv : Written "verbosity".toList "verbosity".toList := .plain (by decide)
  have hl : Refuses Verbosity.readJson (levelObject cs) :=
    (h.of "level" _ _).record (members_onlyMember _ cs) hkl rfl _ _
  have hv : Refuses readJson ('\x7b' :: onlyMember "verbosity".toList (levelObject cs)) :=
    (hl.of "verbosity" _ _).record (members_onlyMember _ _) hkv rfl _ _
  obtain ⟨e, he⟩ := hv.document blanks_nil blanks_nil (toList_levelDocument cs)
  refine ⟨e, ?_⟩
  rw [load, ofJson, he]

/-- Whatever the number of its digits, a level is the one that is configured, or invalid below that
of quiet, or not read at all beyond 32 bits or with a fraction or an exponent. -/
theorem levels_never_wrap :
    (∀ n cs, Literal n cs →
      (∀ c, load (levelDocument cs) = .ok c ↔ (-1 ≤ n ∧ n ≤ 2147483647) ∧
        c.verbosity.level.toInt = n ∧ c = { verbosity := { level := c.verbosity.level } }) ∧
      ((∃ part reason, load (levelDocument cs) = .error (.invalidConfiguration part reason)) ↔
        -2147483648 ≤ n ∧ n < -1) ∧
      ((∃ e, load (levelDocument cs) = .error (.json e)) ↔ n < -2147483648 ∨ 2147483647 < n)) ∧
    ∀ cs, Fractional cs → ∃ e, load (levelDocument cs) = .error (.json e) := by
  refine ⟨fun n cs h => ?_, fun cs h => load_refused h.refused⟩
  by_cases hn : -2147483648 ≤ n ∧ n ≤ 2147483647
  · obtain ⟨level, rfl⟩ : ∃ level : Int32, level.toInt = n :=
      ⟨.ofInt n, Int32.toInt_ofInt_of_le hn.1 (Int.lt_of_le_of_lt hn.2 (by decide))⟩
    have hj := ofJson_level h
    have hlt : level < -1 ↔ level.toInt < -1 := Int32.lt_iff_toInt_lt
    refine ⟨fun c => ?_, ?_, iff_of_false ?_ (by omega)⟩
    · rw [load_of_ofJson hj]
      split
      · next hl =>
        have := hlt.mp hl
        exact iff_of_false nofun (by omega)
      · next hl =>
        have hl := mt hlt.mpr hl
        constructor
        · intro hc
          cases hc
          exact ⟨⟨Int.not_lt.mp hl, hn.2⟩, rfl, rfl⟩
        · rintro ⟨-, he, hc⟩
          rw [hc, Int32.toInt_inj.mp he]
    · rw [load_invalid_iff hj, hlt]
      exact (and_iff_right hn.1).symm
    · rintro ⟨e, he⟩
      exact load_ne_json hj e he
  · obtain ⟨e, he⟩ := load_refused (h.refused (by omega))
    rw [he]
    refine ⟨fun c => iff_of_false nofun (by omega), iff_of_false ?_ (by omega),
      iff_of_true ⟨e, rfl⟩ (by omega)⟩
    rintro ⟨_, _, ⟨⟩⟩

theorem levels_at_the_limits :
    load (levelDocument "2147483647".toList) = .ok { verbosity := { level := 2147483647 } } ∧
    (∃ part reason, load (levelDocument "-2147483648".toList) =
      .error (.invalidConfiguration part reason)) ∧
    (∃ e, load (levelDocument "1e0".toList) = .error (.json e)) ∧
    (∃ e, load (levelDocument "4294967296".toList) = .error (.json e)) ∧
    ∃ e, load (levelDocument "18446744073709551616".toList) = .error (.json e) := by
  obtain ⟨hl, hf⟩ := levels_never_wrap
  have hw : ∀ c cs, c.isDigit = true → c ≠ '0' → Digits cs → Whole (c :: cs) :=
    fun c cs hc h0 h => .digits hc h0 h
  have hmax := hw '2' "147483647".toList rfl (by decide) (by decide)
  have hmin := hw '2' "147483648".toList rfl (by decide) (by decide)
  have h32 := hw '4' "294967296".toList rfl (by decide) (by decide)
  have h64 := hw '1' "8446744073709551616".toList rfl (by decide) (by decide)
  have he : Exponent ['e', '0'] := .some (.inl rfl) .none (by decide) (by decide)
  exact ⟨((hl 2147483647 _ (.natural hmax)).1 _).mpr ⟨by decide, by decide, rfl⟩,
    (hl (-2147483648) _ (.negative hmin (by decide))).2.1.mpr (by decide),
    hf _ (.positive (hw '1' [] rfl (by decide) nofun) .none he (by decide)),
    (hl 4294967296 _ (.natural h32)).2.2.mpr (by decide),
    (hl 18446744073709551616 _ (.natural h64)).2.2.mpr (by decide)⟩

end Config

end LineLogger
