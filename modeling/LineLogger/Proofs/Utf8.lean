import LineLogger.Text.Utf8

namespace LineLogger.Text.Utf8

theorem first_of_lt {b : UInt8} (h : b.toNat < 0x80) :
    first b = (.start, [Char.ofNat b.toNat]) := by
  simp [first, UInt8.lt_iff_toNat_lt, h]

theorem first_two {b : UInt8} (h : 0xC2 ≤ b.toNat) (h' : b.toNat < 0xE0) :
    first b = (.inside 0 0x80 0xBF (b.toNat - 0xC0), []) := by
  have h₁ : ¬b.toNat < 128 := by omega
  have h₂ : ¬b.toNat < 194 := by omega
  simp [first, UInt8.lt_iff_toNat_lt, h', h₁, h₂]

theorem first_three {b : UInt8} (h : 0xE0 ≤ b.toNat) (h' : b.toNat < 0xF0) :
    first b = (.inside 1 (if b = 0xE0 then 0xA0 else 0x80) (if b = 0xED then 0x9F else 0xBF)
      (b.toNat - 0xE0), []) := by
  have h₁ : ¬b.toNat < 128 := by omega
  have h₂ : ¬b.toNat < 194 := by omega
  have h₃ : ¬b.toNat < 224 := by omega
  by_cases he : b = 0xE0
  · subst he; rfl
  · by_cases hd : b = 0xED
    · subst hd; rfl
    · simp [first, UInt8.lt_iff_toNat_lt, he, hd, h', h₁, h₂, h₃]

theorem first_four {b : UInt8} (h : 0xF0 ≤ b.toNat) (h' : b.toNat < 0xF5) :
    first b = (.inside 2 (if b = 0xF0 then 0x90 else 0x80) (if b = 0xF4 then 0x8F else 0xBF)
      (b.toNat - 0xF0), []) := by
  by_cases he : b = 0xF0
  · subst he; rfl
  · by_cases hd : b = 0xF4
    · subst hd; rfl
    · have h₁ : ¬b.toNat < 128 := by omega
      have h₂ : ¬b.toNat < 194 := by omega
      have h₃ : ¬b.toNat < 224 := by omega
      have h₄ : ¬b.toNat < 240 := by omega
      have h₅ : b.toNat < 244 := by
        have : b.toNat ≠ 244 := fun e => hd (UInt8.toNat_inj.mp e)
        omega
      have h₆ : ¬b = 0xE0 := fun e => by simp [e] at h
      have h₇ : ¬b = 0xED := fun e => by simp [e] at h
      simp [first, UInt8.lt_iff_toNat_lt, he, hd, h₁, h₂, h₃, h₄, h₅, h₆, h₇]

theorem decodeFrom_cons (s : State) (b : UInt8) (r : Bytes) :
    decodeFrom s (b :: r) = (next s b).2 ++ decodeFrom (next s b).1 r := by
  cases s <;> rfl

theorem decodeFrom_lead {b : UInt8} {s : State} (h : first b = (s, [])) (r : Bytes) :
    decodeFrom .start (b :: r) = decodeFrom s r := by
  rw [decodeFrom_cons, next, h]
  rfl

theorem toNat_ofNat_of_lt {n : Nat} (h : n < 256) : (UInt8.ofNat n).toNat = n := by
  rw [UInt8.toNat_ofNat']
  exact Nat.mod_eq_of_lt h

theorem decodeFrom_more {low high : UInt8} {n : Nat} (need code : Nat) (r : Bytes) (hn : n < 64)
    (hl : low.toNat ≤ n + 0x80) (hu : n + 0x80 ≤ high.toNat) :
    decodeFrom (.inside (need + 1) low high code) (UInt8.ofNat (n + 0x80) :: r) =
      decodeFrom (.inside need 0x80 0xBF (64 * code + n)) r := by
  have hb : (UInt8.ofNat (n + 0x80)).toNat = n + 0x80 := toNat_ofNat_of_lt (by omega)
  rw [← hb, ← UInt8.le_iff_toNat_le] at hl hu
  rw [decodeFrom_cons, next, if_pos ⟨hl, hu⟩, hb, Nat.add_sub_cancel]
  rfl

theorem decodeFrom_last {low high : UInt8} {n : Nat} (code : Nat) (r : Bytes) (hn : n < 64)
    (hl : low.toNat ≤ n + 0x80) (hu : n + 0x80 ≤ high.toNat) :
    decodeFrom (.inside 0 low high code) (UInt8.ofNat (n + 0x80) :: r) =
      Char.ofNat (64 * code + n) :: decodeFrom .start r := by
  have hb : (UInt8.ofNat (n + 0x80)).toNat = n + 0x80 := toNat_ofNat_of_lt (by omega)
  rw [← hb, ← UInt8.le_iff_toNat_le] at hl hu
  rw [decodeFrom_cons, next, if_pos ⟨hl, hu⟩, hb, Nat.add_sub_cancel]
  rfl

theorem decodeFrom_two {v : Nat} (h : 0x80 ≤ v) (h' : v ≤ 0x7FF) (r : Bytes) :
    decodeFrom .start (UInt8.ofNat (v / 64 % 32 + 0xC0) :: UInt8.ofNat (v % 64 + 0x80) :: r) =
      Char.ofNat v :: decodeFrom .start r := by
  have hb : (UInt8.ofNat (v / 64 % 32 + 0xC0)).toNat = v / 64 % 32 + 0xC0 :=
    toNat_ofNat_of_lt (by omega)
  have hf := first_two (b := UInt8.ofNat (v / 64 % 32 + 0xC0)) (by omega) (by omega)
  have hv : 64 * (v / 64 % 32 + 0xC0 - 0xC0) + v % 64 = v := by omega
  rw [decodeFrom_lead hf, decodeFrom_last _ r (Nat.mod_lt _ (by omega)) (by simp) (by simp; omega),
    hb, hv]

theorem decodeFrom_three {v : Nat} (h : 0x800 ≤ v) (h' : v ≤ 0xFFFF)
    (hs : v < 0xD800 ∨ 0xDFFF < v) (r : Bytes) :
    decodeFrom .start (UInt8.ofNat (v / 4096 % 16 + 0xE0) :: UInt8.ofNat (v / 64 % 64 + 0x80) ::
      UInt8.ofNat (v % 64 + 0x80) :: r) = Char.ofNat v :: decodeFrom .start r := by
  have hb : (UInt8.ofNat (v / 4096 % 16 + 0xE0)).toNat = v / 4096 % 16 + 0xE0 :=
    toNat_ofNat_of_lt (by omega)
  have hf := first_three (b := UInt8.ofNat (v / 4096 % 16 + 0xE0)) (by omega) (by omega)
  have hv : 64 * (64 * (v / 4096 % 16 + 0xE0 - 0xE0) + v / 64 % 64) + v % 64 = v := by omega
  rw [decodeFrom_lead hf, decodeFrom_more 0 _ _ (Nat.mod_lt _ (by omega)),
    decodeFrom_last _ r (Nat.mod_lt _ (by omega)) (by simp) (by simp; omega), hb, hv]
  · split
    · next he =>
      have : v / 4096 % 16 + 0xE0 = 0xE0 := by rw [← hb, he]; rfl
      show 160 ≤ _
      omega
    · exact Nat.le_add_left _ _
  · split
    · next he =>
      have : v / 4096 % 16 + 0xE0 = 0xED := by rw [← hb, he]; rfl
      show _ ≤ 159
      omega
    · show _ ≤ 191
      omega

theorem decodeFrom_four {v : Nat} (h : 0x10000 ≤ v) (h' : v < 0x110000) (r : Bytes) :
    decodeFrom .start (UInt8.ofNat (v / 262144 % 8 + 0xF0) :: UInt8.ofNat (v / 4096 % 64 + 0x80) ::
      UInt8.ofNat (v / 64 % 64 + 0x80) :: UInt8.ofNat (v % 64 + 0x80) :: r) =
      Char.ofNat v :: decodeFrom .start r := by
  have hb : (UInt8.ofNat (v / 262144 % 8 + 0xF0)).toNat = v / 262144 % 8 + 0xF0 :=
    toNat_ofNat_of_lt (by omega)
  have hf := first_four (b := UInt8.ofNat (v / 262144 % 8 + 0xF0)) (by omega) (by omega)
  have hv : 64 * (64 * (64 * (v / 262144 % 8 + 0xF0 - 0xF0) + v / 4096 % 64) + v / 64 % 64) +
      v % 64 = v := by omega
  rw [decodeFrom_lead hf, decodeFrom_more 1 _ _ (Nat.mod_lt _ (by omega)),
    decodeFrom_more 0 _ _ (Nat.mod_lt _ (by omega)) (by simp) (by simp; omega),
    decodeFrom_last _ r (Nat.mod_lt _ (by omega)) (by simp) (by simp; omega), hb, hv]
  · split
    · next he =>
      have : v / 262144 % 8 + 0xF0 = 0xF0 := by rw [← hb, he]; rfl
      show 144 ≤ _
      omega
    · exact Nat.le_add_left _ _
  · split
    · next he =>
      have : v / 262144 % 8 + 0xF0 = 0xF4 := by rw [← hb, he]; rfl
      show _ ≤ 143
      omega
    · show _ ≤ 191
      omega

/-- A character is read back whatever stands after it. Its second byte lies within the bounds that
its first one sets, for it is neither overlong nor a surrogate. -/
theorem decodeFrom_encodeChar (c : Char) (r : Bytes) :
    decodeFrom .start (String.utf8EncodeChar c ++ r) = c :: decodeFrom .start r := by
  have hc : Char.ofNat c.val.toNat = c := Char.ofNat_toNat c
  have hv : c.val.toNat < 0xD800 ∨ 0xDFFF < c.val.toNat ∧ c.val.toNat < 0x110000 := c.valid
  fun_cases String.utf8EncodeChar with
  | case1 v h =>
    have hb : (UInt8.ofNat v).toNat = v := toNat_ofNat_of_lt (by omega)
    have hf := first_of_lt (b := UInt8.ofNat v) (by omega)
    rw [List.singleton_append, decodeFrom_cons, next, hf, hb, hc]
    rfl
  | case2 v h h' => exact (decodeFrom_two (by omega) h' r).trans (by rw [hc])
  | case3 v h h' h'' => exact (decodeFrom_three (by omega) h'' (by omega) r).trans (by rw [hc])
  | case4 v h h' h'' => exact (decodeFrom_four (by omega) (by omega) r).trans (by rw [hc])

theorem decode_encode_append (cs : List Char) (r : Bytes) :
    decode (encode cs ++ r) = cs ++ decode r := by
  induction cs with
  | nil => rfl
  | cons c cs ih =>
    rw [encode, List.flatMap_cons, List.append_assoc]
    exact (decodeFrom_encodeChar c _).trans (congrArg (c :: ·) ih)

theorem decode_encode (cs : List Char) : decode (encode cs) = cs := by
  have h := decode_encode_append cs []
  rwa [List.append_nil, show decode [] = [] from rfl, List.append_nil] at h

@[simp]
theorem toString_ofString (s : String) : toString (ofString s) = s := by
  rw [toString, ofString, decode_encode, String.ofList_toList]

end LineLogger.Text.Utf8
