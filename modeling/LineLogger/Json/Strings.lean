import LineLogger.Json.Scan

namespace LineLogger.Json

def hexDigit? (b : UInt8) : Option Nat :=
  if 0x30 ≤ b && b ≤ 0x39 then some (b.toNat - 0x30)
  else if 0x61 ≤ b && b ≤ 0x66 then some (b.toNat - 0x57)
  else if 0x41 ≤ b && b ≤ 0x46 then some (b.toNat - 0x37)
  else none

/-- Four hexadecimal digits. All four bytes are taken before any is judged. -/
def hexFour (s : Bytes) : Read Nat :=
  match s with
  | a :: b :: c :: d :: r =>
    match hexDigit? a, hexDigit? b, hexDigit? c, hexDigit? d with
    | some a, some b, some c, some d => .ok (((a * 16 + b) * 16 + c) * 16 + d, r)
    | _, _, _, _ => faultAt r .invalidEscape
  | _ => faultAt [] .endInString

def plainEscape? (b : UInt8) : Option UInt8 :=
  if b = quote || b = backslash || b = 0x2F then some b
  else if b = 0x62 then some 0x08
  else if b = 0x66 then some 0x0C
  else if b = 0x6E then some 0x0A
  else if b = 0x72 then some 0x0D
  else if b = 0x74 then some 0x09
  else none

def letterU : UInt8 := 0x75

def expectInEscape (b : UInt8) (s : Bytes) : Except Fault Bytes :=
  match s with
  | [] => faultAt [] .endInString
  | c :: r => if c = b then .ok r else faultAt r .endOfHexEscape

def isHighSurrogate (n : Nat) : Bool := 0xD800 ≤ n && n < 0xDC00

def isLowSurrogate (n : Nat) : Bool := 0xDC00 ≤ n && n < 0xE000

def readLowSurrogate (s : Bytes) : Read Nat :=
  match expectInEscape backslash s with
  | .error f => .error f
  | .ok r =>
    match expectInEscape letterU r with
    | .error f => .error f
    | .ok t =>
      match hexFour t with
      | .error f => .error f
      | .ok (n, u) => if isLowSurrogate n then .ok (n, u) else faultAt u .loneSurrogate

def ofSurrogates (high low : Nat) : Char :=
  Char.ofNat (0x10000 + (high - 0xD800) * 0x400 + (low - 0xDC00))

/-- A character written by its number, which takes a pair of surrogates beyond 16 bits. -/
def readUnicodeEscape (s : Bytes) : Read Char :=
  match hexFour s with
  | .error f => .error f
  | .ok (n, r) =>
    if isLowSurrogate n then faultAt r .loneSurrogate
    else if isHighSurrogate n then
      (readLowSurrogate r).map (fun p => (ofSurrogates n p.1, p.2))
    else .ok (Char.ofNat n, r)

def readEscape (s : Bytes) : Read Bytes :=
  match s with
  | [] => faultAt [] .endInString
  | b :: r =>
    match plainEscape? b with
    | some c => .ok ([c], r)
    | none =>
      if b = letterU then
        (readUnicodeEscape r).map (fun p => (String.utf8EncodeChar p.1, p.2))
      else faultAt r .invalidEscape

theorem hexFour_shortens : Shortens hexFour := by
  intro s n r h
  unfold hexFour at h
  split at h
  · split at h
    · cases h
      simp only [List.length_cons]
      omega
    · cases h
  · cases h

theorem length_expectInEscape {b : UInt8} {s r : Bytes} (h : expectInEscape b s = .ok r) :
    r.length < s.length := by
  unfold expectInEscape at h
  split at h
  · cases h
  · split at h
    · cases h
      exact Nat.lt_succ_self _
    · cases h

theorem readLowSurrogate_shortens : Shortens readLowSurrogate := by
  intro s n r h
  unfold readLowSurrogate at h
  split at h
  · cases h
  · next t ht =>
    split at h
    · cases h
    · next u hu =>
      split at h
      · cases h
      · next m v hv =>
        have l₁ := length_expectInEscape ht
        have l₂ := length_expectInEscape hu
        have l₃ := hexFour_shortens u m v hv
        split at h
        · cases h; omega
        · cases h

theorem Shortens.map {α β : Type} {read : Bytes → Read α} (hr : Shortens read) (f : α → β) :
    Shortens (fun s => (read s).map (fun p => (f p.1, p.2))) := by
  intro s b r h
  simp only at h
  cases hs : read s with
  | error e => rw [hs] at h; cases h
  | ok p =>
    rw [hs] at h
    cases h
    exact hr s p.1 p.2 hs

theorem readUnicodeEscape_shortens : Shortens readUnicodeEscape := by
  intro s c r h
  unfold readUnicodeEscape at h
  split at h
  · cases h
  · next n t ht =>
    have l := hexFour_shortens s n t ht
    split at h
    · cases h
    · split at h
      · exact Nat.lt_trans (readLowSurrogate_shortens.map (ofSurrogates n) t c r h) l
      · cases h; exact l

theorem readEscape_shortens : Shortens readEscape := by
  intro s bs r h
  unfold readEscape at h
  split at h
  · cases h
  · next b t =>
    split at h
    · cases h; exact Nat.lt_succ_self _
    · split at h
      · exact Nat.lt_succ_of_lt (readUnicodeEscape_shortens.map String.utf8EncodeChar t bs r h)
      · cases h

def readStringBytes (s : Bytes) : Read Bytes :=
  match s with
  | [] => faultAt [] .endInString
  | b :: r =>
    if b = quote then .ok ([], r)
    else if b = backslash then
      match h : readEscape r with
      | .error f => .error f
      | .ok (bs, t) =>
        have : t.length < r.length := readEscape_shortens r bs t h
        (readStringBytes t).map (fun p => (bs ++ p.1, p.2))
    else if b < 0x20 then faultAt r .controlCharacter
    else (readStringBytes r).map (fun p => (b :: p.1, p.2))
termination_by s.length
decreasing_by
  · simp only [List.length_cons]
    omega
  · exact Nat.lt_succ_self _

def readString (s : Bytes) : Read String :=
  (readStringBytes s).map (fun p => (Text.Utf8.toString p.1, p.2))

theorem readStringBytes_shortens : Shortens readStringBytes := by
  intro s bs r h
  induction hn : s.length using Nat.strongRecOn generalizing s bs r with
  | ind n ih =>
    subst hn
    rw [readStringBytes.eq_def] at h
    split at h
    · cases h
    · next b t =>
      simp only [List.length_cons] at ih ⊢
      split at h
      · cases h; omega
      · split at h
        · split at h
          · cases h
          · next bs' u hu =>
            have l₁ := readEscape_shortens t bs' u hu
            cases h₂ : readStringBytes u with
            | error f => rw [h₂] at h; cases h
            | ok p =>
              rw [h₂] at h
              cases h
              have := ih u.length (by omega) u p.1 p.2 h₂ rfl
              omega
        · split at h
          · cases h
          · cases h₂ : readStringBytes t with
            | error f => rw [h₂] at h; cases h
            | ok p =>
              rw [h₂] at h
              cases h
              have := ih t.length (by omega) t p.1 p.2 h₂ rfl
              omega

theorem readString_shortens : Shortens readString := readStringBytes_shortens.map _

end LineLogger.Json
