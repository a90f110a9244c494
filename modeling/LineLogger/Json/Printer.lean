import LineLogger.Decimal.Digits

namespace LineLogger.Json

def hexDigit (n : Nat) : Char := if n < 10 then Char.ofNat (48 + n) else Char.ofNat (87 + n)

/-- Only the quote, the backslash and the controls below the space are escaped. -/
def escape (c : Char) : List Char :=
  if c = '"' then ['\\', '"']
  else if c = '\\' then ['\\', '\\']
  else if c = '\n' then ['\\', 'n']
  else if c = '\r' then ['\\', 'r']
  else if c = '\t' then ['\\', 't']
  else if c = '\x08' then ['\\', 'b']
  else if c = '\x0C' then ['\\', 'f']
  else if c.toNat < 0x20 then
    ['\\', 'u', '0', '0', hexDigit (c.toNat / 16), hexDigit (c.toNat % 16)]
  else [c]

def printString (s : String) : List Char := '"' :: s.toList.flatMap escape ++ ['"']

def printBool (b : Bool) : List Char := if b then "true".toList else "false".toList

def printMember (key : String) (value : List Char) : List Char := printString key ++ ':' :: value

def printObject (members : List (String × List Char)) : List Char :=
  '\x7b' :: List.intercalate [','] (members.map (fun m => printMember m.1 m.2)) ++ ['\x7d']

end LineLogger.Json
