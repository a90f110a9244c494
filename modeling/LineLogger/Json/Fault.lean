import LineLogger.Json.Float
import LineLogger.Text.Quoted
import LineLogger.Text.Utf8

namespace LineLogger.Json

inductive Found
  | boolean (b : Bool)
  | null
  | integer (n : Int)
  | float (x : Float)
  | string (s : String)
  | sequence
  | map

inductive Expected
  | integer
  | boolean
  | string
  | unit
  | record (name : String)

inductive Cause
  | endInValue
  | endInString
  | endInObject
  | endInList
  | expectedValue
  | expectedWord
  | expectedColon
  | expectedCommaOrBrace
  | expectedCommaOrBracket
  | invalidNumber
  | numberOutOfRange
  | controlCharacter
  | invalidEscape
  | loneSurrogate
  | endOfHexEscape
  | keyMustBeString
  | trailingComma
  | trailingCharacters
  | mismatch (found : Found) (expected : Expected)
  | integerOutOfRange (n : Int)
  | duplicateField (name : String)
  | unknownVariant (name : String) (known : List String)

def Found.message : Found → String
  | .boolean b => s!"boolean `{b}`"
  | .null => "null"
  | .integer n => "integer `" ++ String.ofList (Decimal.ofInt n) ++ "`"
  | .float x => "floating point `" ++ floatText x ++ "`"
  | .string s => "string " ++ Text.Quoted.encode s
  | .sequence => "sequence"
  | .map => "map"

def Expected.message : Expected → String
  | .integer => "i32"
  | .boolean => "a boolean"
  | .string => "a string"
  | .unit => "unit"
  | .record name => "struct " ++ name

def Cause.message : Cause → String
  | .endInValue => "EOF while parsing a value"
  | .endInString => "EOF while parsing a string"
  | .endInObject => "EOF while parsing an object"
  | .endInList => "EOF while parsing a list"
  | .expectedValue => "expected value"
  | .expectedWord => "expected ident"
  | .expectedColon => "expected `:`"
  | .expectedCommaOrBrace => "expected `,` or `\x7d`"
  | .expectedCommaOrBracket => "expected `,` or `]`"
  | .invalidNumber => "invalid number"
  | .numberOutOfRange => "number out of range"
  | .controlCharacter => "control character (\\u0000-\\u001F) found while parsing a string"
  | .invalidEscape => "invalid escape"
  | .loneSurrogate => "lone leading surrogate in hex escape"
  | .endOfHexEscape => "unexpected end of hex escape"
  | .keyMustBeString => "key must be a string"
  | .trailingComma => "trailing comma"
  | .trailingCharacters => "trailing characters"
  | .mismatch found expected => s!"invalid type: {found.message}, expected {expected.message}"
  | .integerOutOfRange n =>
    "invalid value: integer `" ++ String.ofList (Decimal.ofInt n) ++ "`, expected i32"
  | .duplicateField name => "duplicate field `" ++ name ++ "`"
  | .unknownVariant name known =>
    "unknown variant `" ++ name ++ "`, expected one of " ++
      String.intercalate ", " (known.map (fun k => "`" ++ k ++ "`"))

/-- Where reading stopped is told by the number of bytes left. -/
structure Fault where
  cause : Cause
  left : Nat

/-- A fault with its place in the text: lines count from 1, columns are bytes since the last
line feed. -/
structure Error where
  cause : Cause
  line : Nat
  column : Nat

def Error.message (e : Error) : String := s!"{e.cause.message} at line {e.line} column {e.column}"

def Fault.locate (text : Bytes) (f : Fault) : Error :=
  let before := text.take (text.length - f.left)
  { cause := f.cause
    line := 1 + before.count 0x0A
    column := (before.reverse.takeWhile (· != 0x0A)).length }

/-- Reading takes something off the front of the bytes and returns the rest. -/
abbrev Read (α : Type) := Except Fault (α × Bytes)

def faultAt {α : Type} (s : Bytes) (c : Cause) : Except Fault α := .error ⟨c, s.length⟩

/-- A fault just after the next unread byte, if there is one. -/
def faultPast {α : Type} (s : Bytes) (c : Cause) : Except Fault α := .error ⟨c, s.length - 1⟩

def Shortens {α : Type} (read : Bytes → Read α) : Prop :=
  ∀ s a r, read s = .ok (a, r) → r.length < s.length

end LineLogger.Json
