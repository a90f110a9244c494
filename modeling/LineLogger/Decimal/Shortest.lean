import LineLogger.Decimal.Digits

namespace LineLogger.Decimal

/-- The number `0.d₁d₂d₃… · 10 ^ point`, where `d₁d₂d₃…` are the digits. -/
structure Scaled where
  digits : List Char
  point : Int

/-- A positive binary number `mantissa · 2 ^ exponent`. `narrow` says that the next smaller
number lies only half as far away as the next greater one. -/
structure Binary where
  mantissa : Nat
  exponent : Int
  narrow : Bool

namespace Binary

def ofBits (bits : UInt64) : Binary :=
  let field : Nat := bits.toNat / Nat.pow 2 52 % Nat.pow 2 11
  let fraction : Nat := bits.toNat % Nat.pow 2 52
  if field = 0 then ⟨fraction, -1074, false⟩
  else ⟨Nat.pow 2 52 + fraction, (field : Int) - 1075, fraction = 0 && 1 < field⟩

/-- A number, and the ends of the interval of reals that round to it, over one denominator. -/
structure Interval where
  low : Nat
  exact : Nat
  high : Nat
  denominator : Nat
  closed : Bool

def interval (b : Binary) : Interval :=
  let up := Nat.pow 2 (b.exponent - 2).toNat
  { low := (4 * b.mantissa - if b.narrow then 1 else 2) * up
    exact := 4 * b.mantissa * up
    high := (4 * b.mantissa + 2) * up
    denominator := Nat.pow 2 (2 - b.exponent).toNat
    closed := b.mantissa % 2 = 0 }

end Binary

namespace Binary.Interval

def point (i : Interval) : Int :=
  if i.denominator ≤ i.exact then (digits (i.exact / i.denominator)).length
  else
    let n := (i.denominator - 1) / i.exact
    1 - (if n = 0 then 0 else (digits n).length)

def holds (i : Interval) (e : Int) (c : Nat) : Bool :=
  let v := c * Nat.pow 10 e.toNat * i.denominator
  let s := Nat.pow 10 (-e).toNat
  if i.closed then i.low * s ≤ v && v ≤ i.high * s else i.low * s < v && v < i.high * s

/-- The multiple of `10 ^ e` that rounds to the number, if there is one. Only the two neighbours
need a look. The nearer one wins, and of two equally near ones the even one. -/
def onGrid? (i : Interval) (e : Int) : Option Nat :=
  let unit := Nat.pow 10 e.toNat * i.denominator
  let v := i.exact * Nat.pow 10 (-e).toNat
  let c := v / unit
  match i.holds e c, i.holds e (c + 1) with
  | true, true =>
    let twice := (2 * c + 1) * unit
    some (if 2 * v < twice then c else if twice < 2 * v then c + 1 else c + c % 2)
  | true, false => some c
  | false, true => some (c + 1)
  | false, false => none

end Binary.Interval

def trimZeros (ds : List Char) : List Char := (ds.reverse.dropWhile (· == '0')).reverse

/-- The fewest digits that read back as the number. Seventeen always suffice for a double. -/
def Binary.shortest (b : Binary) : Scaled :=
  let i := b.interval
  let found := (List.range 17).findSome? (fun k =>
    let e := i.point - (k + 1 : Nat)
    (i.onGrid? e).map (·, e))
  match found with
  | some (c, e) => ⟨trimZeros (digits c), e + (digits c).length⟩
  | none => ⟨[], 0⟩

end LineLogger.Decimal
