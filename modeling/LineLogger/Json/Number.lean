import LineLogger.Json.Scan

namespace LineLogger.Json

inductive Number
  | integer (n : Int)
  | float (x : Float)

def isDigit (b : UInt8) : Bool := 0x30 ≤ b && b ≤ 0x39

def digit (b : UInt8) : Nat := b.toNat - 0x30

def isExponent (b : UInt8) : Bool := b == 0x65 || b == 0x45

def isPoint (b : UInt8) : Bool := b == 0x2E

/-- Takes digits on to `value` for as long as the result stays within `limit`. Returns it with the
number of digits taken and what is left. -/
def takeDigits (limit value : Nat) : Bytes → Nat × Nat × Bytes
  | [] => (value, 0, [])
  | b :: r =>
    if isDigit b && 10 * value + digit b ≤ limit then
      let (v, n, t) := takeDigits limit (10 * value + digit b) r
      (v, n + 1, t)
    else (value, 0, b :: r)

def significandLimit : Nat := Nat.pow 2 64 - 1

def exponentLimit : Nat := Nat.pow 2 31 - 1

def power (n : Nat) : Float := Float.ofScientific 1 false n

def divideByPower (x : Float) (n : Nat) : Float :=
  if n ≤ 308 then x / power n
  else if x == 0.0 then x
  else divideByPower (x / power 308) (n - 308)
termination_by n
decreasing_by omega

/-- `significand · 10 ^ exponent`, with one rounding of the significand and one of the product.
There is none if it exceeds every finite number. -/
def scale? (significand : Nat) (exponent : Int) : Option Float :=
  let x := (UInt64.ofNat significand).toFloat
  if exponent < 0 then some (divideByPower x exponent.natAbs)
  else if exponent ≤ 308 then
    let y := x * power exponent.toNat
    if y.isInf then none else some y
  else if significand = 0 then some x
  else none

def signed (positive : Bool) (x : Float) : Float := if positive then x else -x

def readScaled (positive : Bool) (significand : Nat) (exponent : Int) (s : Bytes) : Read Number :=
  match scale? significand exponent with
  | some x => .ok (.float (signed positive x), s)
  | none => faultAt s .numberOutOfRange

/-- An exponent that does not fit 32 bits makes the number zero or too great, at once. -/
def readExponentDigits (positive : Bool) (significand : Nat) (start : Int) (up : Bool) (s : Bytes) :
    Read Number :=
  match s with
  | [] => faultAt [] .endInValue
  | b :: r =>
    if isDigit b then
      match takeDigits exponentLimit (digit b) r with
      | (e, _, t) =>
        match t with
        | c :: u =>
          if isDigit c then
            if significand ≠ 0 && up then faultAt u .numberOutOfRange
            else .ok (.float (signed positive 0.0), u.dropWhile isDigit)
          else readScaled positive significand (if up then start + e else start - e) t
        | [] => readScaled positive significand (if up then start + e else start - e) t
    else faultAt r .invalidNumber

def readExponent (positive : Bool) (significand : Nat) (start : Int) (s : Bytes) : Read Number :=
  match s with
  | 0x2B :: r => readExponentDigits positive significand start true r
  | 0x2D :: r => readExponentDigits positive significand start false r
  | _ => readExponentDigits positive significand start true s

def readFloatEnd (positive : Bool) (significand : Nat) (exponent : Int) (s : Bytes) : Read Number :=
  match s with
  | b :: r =>
    if isExponent b then readExponent positive significand exponent r
    else readScaled positive significand exponent s
  | [] => readScaled positive significand exponent s

def readFraction (positive : Bool) (significand : Nat) (exponent : Int) (s : Bytes) : Read Number :=
  match s with
  | [] => faultPast [] .endInValue
  | b :: _ =>
    if isDigit b then
      match takeDigits significandLimit significand s with
      | (v, n, t) => readFloatEnd positive v (exponent - n) (t.dropWhile isDigit)
    else faultPast s .invalidNumber

/-- An integer as it is written, except that a negative one keeps its place among the 64 bit
integers or is a float, and so is minus zero. -/
def integerOrFloat (positive : Bool) (significand : Nat) : Number :=
  if positive then .integer significand
  else if 0 < significand && significand ≤ Nat.pow 2 63 then .integer (-significand)
  else .float (-(UInt64.ofNat significand).toFloat)

/-- What follows the first digits. Further digits of an integer too long for 64 bits only raise the
exponent. -/
def readNumberEnd (positive : Bool) (significand : Nat) (s : Bytes) : Read Number :=
  let extra := (s.takeWhile isDigit).length
  let t := s.dropWhile isDigit
  match t with
  | b :: r =>
    if isPoint b then readFraction positive significand extra r
    else if isExponent b then readExponent positive significand extra r
    else if extra = 0 then .ok (integerOrFloat positive significand, t)
    else readScaled positive significand extra t
  | [] =>
    if extra = 0 then .ok (integerOrFloat positive significand, t)
    else readScaled positive significand extra t

def readUnsigned (positive : Bool) (s : Bytes) : Read Number :=
  match s with
  | [] => faultAt [] .endInValue
  | b :: r =>
    if b = 0x30 then
      if (r.head?.map isDigit).getD false then faultPast r .invalidNumber
      else readNumberEnd positive 0 r
    else if isDigit b then
      match takeDigits significandLimit (digit b) r with
      | (v, _, t) => readNumberEnd positive v t
    else faultAt r .invalidNumber

def startsNumber (b : UInt8) : Bool := b == minus || isDigit b

def readNumber (s : Bytes) : Read Number :=
  match s with
  | [] => faultAt [] .endInValue
  | b :: r => if b = minus then readUnsigned false r else readUnsigned true s

theorem takeDigits_length_le (limit value : Nat) (s : Bytes) :
    (takeDigits limit value s).2.2.length ≤ s.length := by
  fun_induction takeDigits limit value s with
  | case1 => exact Nat.le_refl _
  | case2 _ b r _ v n t e ih => rw [e] at ih; exact Nat.le_succ_of_le ih
  | case3 => exact Nat.le_refl _

theorem length_readScaled {positive : Bool} {m : Nat} {e : Int} {s r : Bytes} {x : Number}
    (h : readScaled positive m e s = .ok (x, r)) : r.length ≤ s.length := by
  unfold readScaled at h
  split at h
  · cases h; exact Nat.le_refl _
  · cases h

theorem length_readExponentDigits {positive up : Bool} {m : Nat} {e : Int} {s r : Bytes}
    {x : Number} (h : readExponentDigits positive m e up s = .ok (x, r)) :
    r.length ≤ s.length := by
  unfold readExponentDigits at h
  split at h
  · cases h
  · next b t =>
    split at h
    · split at h
      next v n u hu =>
      have l := takeDigits_length_le exponentLimit (digit b) t
      rw [hu] at l
      split at h
      · next c w =>
        split at h
        · split at h
          · cases h
          · cases h
            have := length_dropWhile_le isDigit w
            simp only [List.length_cons] at l ⊢
            omega
        · have := length_readScaled h
          exact Nat.le_succ_of_le (Nat.le_trans this l)
      · have := length_readScaled h
        exact Nat.le_succ_of_le (Nat.le_trans this l)
    · cases h

theorem length_readExponent {positive : Bool} {m : Nat} {e : Int} {s r : Bytes} {x : Number}
    (h : readExponent positive m e s = .ok (x, r)) : r.length ≤ s.length := by
  unfold readExponent at h
  split at h
  · exact Nat.le_succ_of_le (length_readExponentDigits h)
  · exact Nat.le_succ_of_le (length_readExponentDigits h)
  · exact length_readExponentDigits h

theorem length_readFloatEnd {positive : Bool} {m : Nat} {e : Int} {s r : Bytes} {x : Number}
    (h : readFloatEnd positive m e s = .ok (x, r)) : r.length ≤ s.length := by
  unfold readFloatEnd at h
  split at h
  · split at h
    · exact Nat.le_succ_of_le (length_readExponent h)
    · exact length_readScaled h
  · exact length_readScaled h

theorem length_readFraction {positive : Bool} {m : Nat} {e : Int} {s r : Bytes} {x : Number}
    (h : readFraction positive m e s = .ok (x, r)) : r.length ≤ s.length := by
  unfold readFraction at h
  split at h
  · cases h
  · next b t =>
    split at h
    · split at h
      next v n u hu =>
      have l := takeDigits_length_le significandLimit m (b :: t)
      rw [hu] at l
      have := length_readFloatEnd h
      have := length_dropWhile_le isDigit u
      simp only at l
      omega
    · cases h

theorem length_readNumberEnd {positive : Bool} {m : Nat} {s r : Bytes} {x : Number}
    (h : readNumberEnd positive m s = .ok (x, r)) : r.length ≤ s.length := by
  unfold readNumberEnd at h
  have l := length_dropWhile_le isDigit s
  simp only at h
  split at h
  · next b t ht =>
    rw [ht] at l h
    simp only [List.length_cons] at l
    split at h
    · have := length_readFraction h
      omega
    · split at h
      · have := length_readExponent h
        omega
      · split at h
        · cases h
          simp only [List.length_cons]
          omega
        · have := length_readScaled h
          simp only [List.length_cons] at this
          omega
  · next ht =>
    rw [ht] at l h
    split at h
    · cases h; exact Nat.zero_le _
    · have := length_readScaled h
      exact Nat.le_trans this (Nat.zero_le _)

theorem readUnsigned_shortens (positive : Bool) : Shortens (readUnsigned positive) := by
  intro s x r h
  unfold readUnsigned at h
  split at h
  · cases h
  · next b t =>
    split at h
    · split at h
      · cases h
      · exact Nat.lt_succ_of_le (length_readNumberEnd h)
    · split at h
      · split at h
        next v n u hu =>
        have l := takeDigits_length_le significandLimit (digit b) t
        rw [hu] at l
        exact Nat.lt_succ_of_le (Nat.le_trans (length_readNumberEnd h) l)
      · cases h

theorem readNumber_shortens : Shortens readNumber := by
  intro s x r h
  unfold readNumber at h
  split at h
  · cases h
  · split at h
    · exact Nat.lt_succ_of_lt (readUnsigned_shortens false _ _ _ h)
    · exact readUnsigned_shortens true _ _ _ h

end LineLogger.Json
