namespace LineLogger

abbrev Bytes := List UInt8

namespace Text.Utf8

def encode (cs : List Char) : Bytes := cs.flatMap String.utf8EncodeChar

def ofString (s : String) : Bytes := encode s.toList

def replacement : Char := '\uFFFD'

/-- Inside a character, `need + 1` bytes are still to come; the next one lies between `low` and
`high`, later ones between `0x80` and `0xBF`, and `code` holds the bits read so far. -/
inductive State
  | start
  | inside (need : Nat) (low high : UInt8) (code : Nat)

/-- The first byte of a character. The bounds on the second byte rule out overlong forms,
surrogates and values above `0x10FFFF`. -/
def first (b : UInt8) : State × List Char :=
  if b < 0x80 then (.start, [Char.ofNat b.toNat])
  else if b < 0xC2 then (.start, [replacement])
  else if b < 0xE0 then (.inside 0 0x80 0xBF (b.toNat - 0xC0), [])
  else if b = 0xE0 then (.inside 1 0xA0 0xBF 0, [])
  else if b = 0xED then (.inside 1 0x80 0x9F 0xD, [])
  else if b < 0xF0 then (.inside 1 0x80 0xBF (b.toNat - 0xE0), [])
  else if b = 0xF0 then (.inside 2 0x90 0xBF 0, [])
  else if b < 0xF4 then (.inside 2 0x80 0xBF (b.toNat - 0xF0), [])
  else if b = 0xF4 then (.inside 2 0x80 0x8F 4, [])
  else (.start, [replacement])

/-- A byte that cannot continue a character ends it as ill formed and is read afresh. -/
def next : State → UInt8 → State × List Char
  | .start, b => first b
  | .inside need low high code, b =>
    if low ≤ b ∧ b ≤ high then
      let code := 64 * code + (b.toNat - 0x80)
      match need with
      | 0 => (.start, [Char.ofNat code])
      | n + 1 => (.inside n 0x80 0xBF code, [])
    else
      let (s, cs) := first b
      (s, replacement :: cs)

def decodeFrom : State → Bytes → List Char
  | .start, [] => []
  | .inside .., [] => [replacement]
  | s, b :: r => (next s b).2 ++ decodeFrom (next s b).1 r

def decode (b : Bytes) : List Char := decodeFrom .start b

def toString (b : Bytes) : String := String.ofList (decode b)

end Text.Utf8

end LineLogger
