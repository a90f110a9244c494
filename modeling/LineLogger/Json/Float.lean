import LineLogger.Decimal.Shortest

namespace LineLogger.Json

def signedExponent (e : Int) : List Char :=
  if e < 0 then '-' :: Decimal.digits e.natAbs else '+' :: Decimal.digits e.natAbs

/-- Plain notation from `0.00001` up to `10 ^ 16`, always with a fraction; a mantissa and a signed
exponent beyond. -/
def layout (s : Decimal.Scaled) : List Char :=
  let n := s.digits.length
  if 0 < s.point ∧ s.point ≤ 16 then
    let p := s.point.toNat
    if n ≤ p then s.digits ++ List.replicate (p - n) '0' ++ ['.', '0']
    else s.digits.take p ++ '.' :: s.digits.drop p
  else if -5 < s.point ∧ s.point ≤ 0 then
    ['0', '.'] ++ List.replicate s.point.natAbs '0' ++ s.digits
  else
    match s.digits with
    | [] => ['0', '.', '0']
    | [d] => d :: 'e' :: signedExponent (s.point - 1)
    | d :: ds => d :: '.' :: ds ++ 'e' :: signedExponent (s.point - 1)

def floatText (x : Float) : String :=
  let bits := x.toBits
  let sign := if bits.toNat < Nat.pow 2 63 then [] else ['-']
  let magnitude := UInt64.ofNat (bits.toNat % Nat.pow 2 63)
  let body :=
    if magnitude = 0 then ['0', '.', '0'] else layout (Decimal.Binary.ofBits magnitude).shortest
  String.ofList (sign ++ body)

end LineLogger.Json
