import LineLogger.Json.Record
import LineLogger.Proofs.Json.Skipping
import Mathlib.Data.List.DropRight

namespace LineLogger.Json

variable {positive up : Bool} {m n limit : Nat} {e : Int} {x : Number} {b : UInt8} {s r t : Bytes}

theorem exists_of_map_ok {α β ε : Type} {x : Except ε α} {f : α → β} {b : β}
    (h : x.map f = .ok b) : ∃ a, x = .ok a ∧ f a = b := by
  cases x with
  | error e => cases h
  | ok a => exact ⟨a, rfl, Except.ok.inj h⟩

theorem skipEscape_of_hexFour (h : hexFour s = .ok (n, r)) : skipEscape (letterU :: s) = .ok r := by
  have hp : plainEscape? letterU = none := by decide
  rw [skipEscape, hp, if_neg (by simp), if_pos rfl, h]
  rfl

theorem expectInEscape_eq (h : expectInEscape b s = .ok r) : s = b :: r := by
  rw [expectInEscape.eq_def] at h
  split at h
  · cases h
  · split at h
    · next hb =>
      cases h
      rw [hb]
    · cases h

theorem skipString_of_readLowSurrogate (h : readLowSurrogate s = .ok (n, r)) :
    skipString s = skipString r := by
  rw [readLowSurrogate] at h
  split at h
  · cases h
  · next t ht =>
    split at h
    · cases h
    · next u hu =>
      split at h
      · cases h
      · next k v hv =>
        split at h
        · cases h
          rw [expectInEscape_eq ht, expectInEscape_eq hu]
          exact skipString_escape (skipEscape_of_hexFour hv)
        · cases h

theorem skipEscape_of_readUnicodeEscape {c : Char} (h : readUnicodeEscape s = .ok (c, r)) :
    ∃ t, skipEscape (letterU :: s) = .ok t ∧ skipString t = skipString r := by
  rw [readUnicodeEscape] at h
  split at h
  · cases h
  · next n t ht =>
    refine ⟨t, skipEscape_of_hexFour ht, ?_⟩
    split at h
    · cases h
    · split at h
      · obtain ⟨⟨k, u⟩, hk, he⟩ := exists_of_map_ok h
        have hr : u = r := congrArg Prod.snd he
        rw [← hr]
        exact skipString_of_readLowSurrogate hk
      · have hr : t = r := congrArg Prod.snd (Except.ok.inj h)
        rw [hr]

theorem skipEscape_of_readEscape {bs : Bytes} (h : readEscape s = .ok (bs, r)) :
    ∃ t, skipEscape s = .ok t ∧ skipString t = skipString r := by
  rw [readEscape.eq_def] at h
  split at h
  · cases h
  · next b u =>
    split at h
    · next c hc =>
      cases h
      exact ⟨_, by rw [skipEscape, hc]; rfl, rfl⟩
    · split at h
      · next hu =>
        obtain ⟨⟨c, t⟩, ht, he⟩ := exists_of_map_ok h
        cases he
        rw [hu]
        exact skipEscape_of_readUnicodeEscape ht
      · cases h

theorem skipString_of_readStringBytes {bs : Bytes} (h : readStringBytes s = .ok (bs, r)) :
    skipString s = .ok r := by
  fun_induction readStringBytes s generalizing bs r with
  | case1 => cases h
  | case2 =>
    cases h
    rw [skipString, if_pos rfl]
  | case3 => cases h
  | case4 u bs' t ht _ _ ih =>
    obtain ⟨⟨x, y⟩, hx, he⟩ := exists_of_map_ok h
    cases he
    obtain ⟨v, hv, he⟩ := skipEscape_of_readEscape ht
    rw [skipString_escape hv, he]
    exact ih hx
  | case5 => cases h
  | case6 b u hq hb hc ih =>
    obtain ⟨⟨x, y⟩, hx, he⟩ := exists_of_map_ok h
    cases he
    rw [skipString, if_neg hq, if_neg hb, if_neg hc]
    exact ih hx

theorem skipString_of_readString {k : String} (h : readString s = .ok (k, r)) :
    skipString s = .ok r := by
  obtain ⟨⟨x, y⟩, hx, he⟩ := exists_of_map_ok h
  cases he
  exact skipString_of_readStringBytes hx

theorem dropWhile_takeDigits (limit n : Nat) (s : Bytes) :
    (takeDigits limit n s).2.2.dropWhile isDigit = s.dropWhile isDigit := by
  fun_induction takeDigits limit n s with
  | case1 => rfl
  | case2 _ b r h v n t e ih =>
    rw [e] at ih
    rw [Bool.and_eq_true] at h
    rw [List.dropWhile_cons_of_pos h.1]
    exact ih
  | case3 => rfl

theorem rest_of_readScaled (h : readScaled positive m e s = .ok (x, r)) : r = s := by
  rw [readScaled] at h
  split at h
  · cases h
    rfl
  · cases h

theorem rest_of_readExponentDigits (h : readExponentDigits positive m e up s = .ok (x, r)) :
    ∃ b t, s = b :: t ∧ isDigit b = true ∧ r = t.dropWhile isDigit := by
  rw [readExponentDigits.eq_def] at h
  split at h
  · cases h
  · next b t =>
    split at h
    · next hb =>
      refine ⟨b, t, rfl, hb, ?_⟩
      have hd := dropWhile_takeDigits exponentLimit (digit b) t
      split at h
      next v n u hu =>
      rw [hu] at hd
      split at h
      · next c w =>
        split at h
        · next hc =>
          split at h
          · cases h
          · cases h
            rw [← hd]
            exact (List.dropWhile_cons_of_pos hc).symm
        · next hc =>
          have hr := rest_of_readScaled h
          rw [hr, ← hd]
          exact (List.dropWhile_cons_of_neg hc).symm
      · have hr := rest_of_readScaled h
        rw [hr, ← hd]
        rfl
    · cases h

theorem skipExponent_of_readExponent (h : readExponent positive m e s = .ok (x, r)) :
    skipExponent s = .ok r := by
  rw [readExponent.eq_def] at h
  split at h
  · obtain ⟨b, u, rfl, hb, rfl⟩ := rest_of_readExponentDigits h
    exact if_pos hb
  · obtain ⟨b, u, rfl, hb, rfl⟩ := rest_of_readExponentDigits h
    exact if_pos hb
  · next hp hm =>
    obtain ⟨b, u, rfl, hb, rfl⟩ := rest_of_readExponentDigits h
    rw [skipExponent.eq_def]
    split
    · next t he => exact (hp t he).elim
    · next t he => exact (hm t he).elim
    · exact if_pos hb

theorem skipNumberEnd_of_readFloatEnd (h : readFloatEnd positive m e s = .ok (x, r)) :
    skipNumberEnd s = .ok r := by
  rw [readFloatEnd.eq_def] at h
  rw [skipNumberEnd.eq_def]
  split at h
  · next b t =>
    dsimp only
    split at h
    · next hb =>
      rw [if_pos hb]
      exact skipExponent_of_readExponent h
    · next hb =>
      rw [if_neg hb, rest_of_readScaled h]
  · rw [rest_of_readScaled h]

theorem skipNumberEnd_of_readFraction (h : readFraction positive m e s = .ok (x, r)) :
    startsWithDigit s = true ∧ skipNumberEnd (s.dropWhile isDigit) = .ok r := by
  rw [readFraction.eq_def] at h
  split at h
  · cases h
  · next b t =>
    split at h
    · next hb =>
      refine ⟨hb, ?_⟩
      have hd := dropWhile_takeDigits significandLimit m (b :: t)
      split at h
      next v n u hu =>
      rw [hu] at hd
      rw [← hd]
      exact skipNumberEnd_of_readFloatEnd h
    · cases h

theorem skip_of_readNumberEnd (h : readNumberEnd positive m s = .ok (x, r)) :
    (match s.dropWhile isDigit with
      | [] => Except.ok []
      | c :: u =>
        if isPoint c then
          if startsWithDigit u then skipNumberEnd (u.dropWhile isDigit)
          else faultPast u .invalidNumber
        else skipNumberEnd (s.dropWhile isDigit)) = .ok r := by
  rw [readNumberEnd] at h
  generalize (s.takeWhile isDigit).length = n at h
  generalize s.dropWhile isDigit = t at h ⊢
  split at h
  · next b u =>
    dsimp only
    split at h
    · next hb =>
      obtain ⟨hd, hr⟩ := skipNumberEnd_of_readFraction h
      rw [if_pos hb, if_pos hd, hr]
    · next hb =>
      rw [if_neg hb, skipNumberEnd]
      split at h
      · next he =>
        rw [if_pos he]
        exact skipExponent_of_readExponent h
      · next he =>
        rw [if_neg he]
        split at h
        · cases h
          rfl
        · rw [rest_of_readScaled h]
  · split at h
    · cases h
      rfl
    · rw [rest_of_readScaled h]

theorem skipUnsigned_of_readUnsigned (h : readUnsigned positive s = .ok (x, r)) :
    skipUnsigned s = .ok r := by
  rw [readUnsigned.eq_def] at h
  rw [skipUnsigned.eq_def]
  split at h
  · cases h
  · next b t =>
    dsimp only
    split at h
    · next hb =>
      subst hb
      split at h
      · cases h
      · next hd =>
        have hs : startsWithDigit t = false := by simpa [startsWithDigit] using hd
        have hr := skip_of_readNumberEnd h
        have hn : NoDigit t := by
          intro b hb
          cases t with
          | nil => cases hb
          | cons c t =>
            cases hb
            exact hs
        have ht : t.dropWhile isDigit = t := dropWhile_digits (show Digits [] from nofun) hn
        rw [ht] at hr
        rw [hs]
        exact hr
    · next hb =>
      split at h
      · next hd =>
        have ht := dropWhile_takeDigits significandLimit (digit b) t
        split at h
        next v n u hu =>
        rw [hu] at ht
        have hr := skip_of_readNumberEnd h
        rw [ht] at hr
        rw [if_neg (by simp [hb]), if_pos hd, if_neg hb]
        exact hr
      · cases h

/-- A reader that stops behind the value that it reads. -/
def Agrees {α : Type} (read : Bytes → Read α) : Prop :=
  ∀ s a r, read s = .ok (a, r) → skipValue s = .ok r

theorem skipValue_scalar (hb : skipBlank s = b :: t) (hl : b ≠ openBracket) (ho : b ≠ openBrace)
    (h : skipScalar b t = .ok r) : skipValue s = .ok r := by
  rw [skipValue, skip_value, hb]
  dsimp only
  rw [if_neg hl, if_neg ho, h]
  exact skip_behind_nil r

theorem rest_of_toInt32 {n : Int32} (h : toInt32 x s = .ok (n, r)) : r = s := by
  rw [toInt32.eq_def] at h
  split at h
  · split at h
    · cases h
      rfl
    · cases h
  · cases h

theorem skipScalar_of_readNumber (hb : startsNumber b = true)
    (h : readNumber (b :: s) = .ok (x, r)) : skipScalar b s = .ok r := by
  rw [readNumber] at h
  split at h
  · next hm =>
    subst hm
    exact skipUnsigned_of_readUnsigned h
  · next hm =>
    have hd : isDigit b = true := by simpa [startsNumber, hm] using hb
    rw [skipScalar_digit hd]
    exact skipUnsigned_of_readUnsigned h

theorem readInt32_agrees : Agrees readInt32 := by
  intro s n r h
  rw [readInt32.eq_def] at h
  split at h
  · cases h
  · next b t hb =>
    split at h
    · next hn =>
      split at h
      · cases h
      · next x u hu =>
        rw [rest_of_toInt32 h]
        apply skipValue_scalar hb _ _ (skipScalar_of_readNumber hn hu)
        · rintro rfl
          cases hn
        · rintro rfl
          cases hn
    · exact absurd h refuse_ne_ok

theorem readBool_agrees : Agrees readBool := by
  intro s v r h
  rw [readBool.eq_def] at h
  split at h
  · cases h
  · next b t hb =>
    split at h
    · next hn =>
      obtain ⟨u, hu, he⟩ := exists_of_map_ok h
      cases he
      subst hn
      exact skipValue_scalar hb (by decide) (by decide) hu
    · split at h
      · next hn =>
        obtain ⟨u, hu, he⟩ := exists_of_map_ok h
        cases he
        subst hn
        exact skipValue_scalar hb (by decide) (by decide) hu
      · exact absurd h refuse_ne_ok

theorem readText_agrees : Agrees readText := by
  intro s v r h
  rw [readText.eq_def] at h
  split at h
  · cases h
  · next b t hb =>
    split at h
    · next hq =>
      subst hq
      exact skipValue_scalar hb (by decide) (by decide) (skipString_of_readString h)
    · exact absurd h refuse_ne_ok

theorem Agrees.map {α β : Type} {read : Bytes → Read α} (hr : Agrees read) (f : α → β) :
    Agrees (fun s => (read s).map (fun p => (f p.1, p.2))) := by
  intro s b r h
  obtain ⟨⟨a, t⟩, ht, he⟩ := exists_of_map_ok h
  cases he
  exact hr s a t ht

theorem Agrees.of {α ρ : Type} {read : Bytes → Read α} (hr : Agrees read) (key : String)
    (hs : Shortens read) (set : α → ρ → ρ) : Agrees (Member.of key read hs set).read := hr.map set

theorem skip_append {stage : Stage} {ks : List Bracket} (hs : stage = .opened → ks ≠ [])
    (h : skip stage ks s = .ok r) (ks' : List Bracket) :
    skip stage (ks ++ ks') s = skip .behind ks' r := by
  fun_induction skip stage ks s with
  | case1 => cases h
  | case2 s ks t hb hlt ih =>
    rw [skip_value, hb]
    exact ih (by simp) h
  | case3 s ks t hb hlt hl ih =>
    rw [skip_value, hb]
    exact ih (by simp) h
  | case4 => cases h
  | case5 s ks b t hb hlt hl ho u hu hle ih =>
    rw [skip_value, hb]
    dsimp only
    rw [if_neg hl, if_neg ho, hu]
    exact ih (by simp) h
  | case6 => exact absurd rfl (hs rfl)
  | case7 => cases h
  | case8 s k ks t hb hlt ih =>
    rw [List.cons_append, skip_opened, hb]
    dsimp only
    rw [if_pos rfl]
    exact ih (by simp) h
  | case9 => cases h
  | case10 s k ks b t hb hlt hk u hu hle ih =>
    rw [List.cons_append, skip_opened, hb]
    dsimp only
    rw [if_neg hk, hu]
    exact ih (by simp) h
  | case11 =>
    cases h
    rfl
  | case12 => cases h
  | case13 => cases h
  | case14 s k ks t u hu hle hb hlt ih =>
    rw [List.cons_append, skip_behind, hb]
    dsimp only
    rw [if_pos rfl, hu]
    exact ih (by simp) h
  | case15 s k ks t hb hlt hc ih =>
    rw [List.cons_append, skip_behind, hb]
    dsimp only
    rw [if_neg hc, if_pos rfl]
    exact ih (by simp) h
  | case16 => cases h

theorem skip_value_append (h : skipValue s = .ok r) (ks : List Bracket) :
    skip .value ks s = skip .behind ks r := skip_append (fun hs => by cases hs) h ks

variable {ρ : Type} {fields : List (Member ρ)} {seen : List String} {key : String} {v y : ρ}
  {first : Bool} {set : ρ → ρ}

theorem readColon_eq (h : readColon s = .ok r) : skipBlank s = colon :: r := by
  rw [readColon.eq_def] at h
  split at h
  · cases h
  · next b t hb =>
    split at h
    · next hc =>
      cases h
      rw [hb, hc]
    · cases h

theorem skipKey_of_readString (hs : skipString r = .ok s) (hc : readColon s = .ok t) :
    skipKey (quote :: r) = .ok t := by
  have hb : skipBlank (quote :: r) = quote :: r := skipBlank_cons rfl r
  rw [skipKey, hb]
  dsimp only
  rw [if_pos rfl, hs]
  dsimp only
  rw [readColon_eq hc]
  exact if_pos rfl

/-- Where a reader of members stands for the one that passes over them. -/
def memberStage (first : Bool) : Stage := if first then .opened else .behind

theorem skip_done (k : Bracket) (first : Bool) (h : skipBlank s = k.close :: r) :
    skip (memberStage first) [k] s = .ok r := by
  cases first with
  | true =>
    change skip .opened [k] s = _
    rw [skip_opened, h]
    dsimp only
    rw [if_pos rfl, skip_behind_nil]
  | false =>
    change skip .behind [k] s = _
    rw [skip_behind, h]
    cases k <;> exact skip_behind_nil r

theorem nextKey_cases {t : Turn} (h : nextKey first s = .ok t) :
    (∃ r, t = .done r ∧ skipBlank s = closeBrace :: r) ∨
      ∃ r, t = .key r ∧ (first = true ∧ skipBlank s = quote :: r ∨
        first = false ∧ ∃ u, skipBlank s = comma :: u ∧ skipBlank u = quote :: r) := by
  rw [nextKey.eq_def] at h
  split at h
  · cases h
  · next b r hb =>
    rw [hb]
    split at h
    · next hc =>
      cases h
      exact .inl ⟨r, rfl, by rw [hc]⟩
    · split at h
      · next hf =>
        split at h
        · next hq =>
          cases h
          exact .inr ⟨r, rfl, .inl ⟨hf, by rw [hq]⟩⟩
        · cases h
      · next hf =>
        split at h
        · next hc =>
          split at h
          · cases h
          · next c u hu =>
            split at h
            · next hq =>
              cases h
              exact .inr ⟨u, rfl, .inr ⟨by simpa using hf, r, by rw [hc], by rw [hu, hq]⟩⟩
            · split at h <;> cases h
        · cases h

theorem skip_nextKey (h : nextKey first s = .ok (.key r)) (hk : skipKey (quote :: r) = .ok t) :
    skip (memberStage first) [.object] s = skip .value [.object] t := by
  obtain ⟨u, hu, -⟩ | ⟨u, hu, hc⟩ := nextKey_cases h
  · cases hu
  · cases hu
    obtain ⟨rfl, hb⟩ | ⟨rfl, u, hb, hu⟩ := hc
    · change skip .opened [.object] s = _
      rw [skip_opened, hb]
      change (skipKey (quote :: r)).bind _ = _
      rw [hk]
      rfl
    · have he : skipKey u = skipKey (quote :: r) := by
        rw [skipKey, skipKey, hu, skipBlank_cons rfl r]
      change skip .behind [.object] s = _
      rw [skip_behind, hb]
      change (skipKey u).bind _ = _
      rw [he, hk]
      rfl

theorem readMember_agrees (hf : ∀ f ∈ fields, Agrees f.read)
    (h : readMember fields seen key s = .ok (set, r)) :
    ∃ t, readColon s = .ok t ∧ skipValue t = .ok r := by
  rw [readMember] at h
  split at h
  · next f hk =>
    split at h
    · rw [duplicate.eq_def] at h
      split at h <;> cases h
    · split at h
      · cases h
      · next t ht => exact ⟨t, ht, hf f (List.mem_of_find?_eq_some hk) t set r h⟩
  · split at h
    · cases h
    · next t ht =>
      obtain ⟨u, hu, he⟩ := exists_of_map_ok h
      cases he
      exact ⟨t, ht, hu⟩

theorem readMembers_agrees (hf : ∀ f ∈ fields, Agrees f.read)
    (h : readMembers fields first seen v s = .ok (y, r)) :
    skip (memberStage first) [.object] s = .ok r := by
  fun_induction readMembers fields first seen v s with
  | case1 => cases h
  | case2 first seen v s t ht =>
    cases h
    obtain ⟨u, hu, hb⟩ | ⟨u, hu, -⟩ := nextKey_cases ht
    · cases hu
      exact skip_done .object first hb
    · cases hu
  | case3 => cases h
  | case4 => cases h
  | case5 first seen v s t ht key u hu set x hx hlt ih =>
    obtain ⟨c, hc, hr⟩ := readMember_agrees hf hx
    rw [skip_nextKey ht (skipKey_of_readString (skipString_of_readString hu) hc)]
    exact (skip_value_append hr [.object]).trans (ih h)

theorem readListEnd_eq (h : readListEnd s = .ok r) : skipBlank s = closeBracket :: r := by
  rw [readListEnd.eq_def] at h
  split at h
  · cases h
  · next b t hb =>
    split at h
    · next hc =>
      cases h
      rw [hb, hc]
    · split at h
      · split at h <;> cases h
      · cases h

theorem skip_value_skipBlank (ks : List Bracket) (s : Bytes) :
    skip .value ks (skipBlank s) = skip .value ks s := by
  have hs : skipBlank (skipBlank s) = skipBlank s := List.dropWhile_idempotent isBlank s
  rw [skip_value, skip_value, hs]

theorem skip_nextElement (h : nextElement first s = .ok (some r)) :
    skip (memberStage first) [.list] s = skip .value [.list] r := by
  rw [nextElement.eq_def] at h
  split at h
  · cases h
  · next b t hb =>
    split at h
    · cases h
    · next hc =>
      split at h
      · next hf =>
        cases h
        subst hf
        change skip .opened [.list] s = _
        rw [skip_opened, hb]
        exact if_neg hc
      · next hf =>
        split at h
        · next hm =>
          split at h
          · cases h
          · next c u hu =>
            split at h
            · cases h
            · cases h
              have hf : first = false := by simpa using hf
              subst hf hm
              change skip .behind [.list] s = _
              rw [skip_behind, hb, ← hu, skip_value_skipBlank]
              rfl
        · cases h

theorem skip_listEnd (first : Bool) (h : (readListEnd s).map (v, ·) = .ok (y, r)) :
    skip (memberStage first) [.list] s = .ok r := by
  obtain ⟨t, ht, he⟩ := exists_of_map_ok h
  cases he
  exact skip_done .list first (readListEnd_eq ht)

theorem readElements_agrees (hf : ∀ f ∈ fields, Agrees f.read)
    (h : readElements fields first v s = .ok (y, r)) :
    skip (memberStage first) [.list] s = .ok r := by
  induction fields generalizing first v s with
  | nil => exact skip_listEnd first h
  | cons f fs ih =>
    rw [readElements] at h
    split at h
    · cases h
    · exact skip_listEnd first h
    · next t ht =>
      split at h
      · cases h
      · next set u hu =>
        have hr := hf f List.mem_cons_self t set u hu
        rw [skip_nextElement ht, skip_value_append hr]
        exact ih (fun f hm => hf f (List.mem_cons_of_mem _ hm)) h

theorem readRecord_agrees (hf : ∀ f ∈ fields, Agrees f.read) (name : String) :
    Agrees (readRecord name fields v) := by
  intro s y r h
  rw [readRecord.eq_def] at h
  split at h
  · cases h
  · next b t hb =>
    rw [skipValue, skip_value, hb]
    split at h
    · next hc =>
      subst hc
      exact readMembers_agrees hf h
    · split at h
      · next hc =>
        subst hc
        exact readElements_agrees hf h
      · exact absurd h refuse_ne_ok

end LineLogger.Json
