import LineLogger.Json.Fault

namespace LineLogger.Json

def quote : UInt8 := 0x22
def comma : UInt8 := 0x2C
def minus : UInt8 := 0x2D
def colon : UInt8 := 0x3A
def openBracket : UInt8 := 0x5B
def backslash : UInt8 := 0x5C
def closeBracket : UInt8 := 0x5D
def openBrace : UInt8 := 0x7B
def closeBrace : UInt8 := 0x7D

def isBlank (b : UInt8) : Bool := b == 0x20 || b == 0x0A || b == 0x09 || b == 0x0D

def skipBlank (s : Bytes) : Bytes := s.dropWhile isBlank

theorem length_dropWhile_le {α : Type} (p : α → Bool) (s : List α) :
    (s.dropWhile p).length ≤ s.length :=
  (List.dropWhile_suffix p).length_le

theorem length_skipBlank_le (s : Bytes) : (skipBlank s).length ≤ s.length :=
  length_dropWhile_le isBlank s

/-- What must follow the first letter of a word. What follows the word is not looked at. -/
def word : List UInt8 → Bytes → Except Fault Bytes
  | [], s => .ok s
  | _ :: _, [] => faultAt [] .endInValue
  | w :: ws, b :: r => if b = w then word ws r else faultAt r .expectedWord

def restOfNull : Bytes := [0x75, 0x6C, 0x6C]
def restOfTrue : Bytes := [0x72, 0x75, 0x65]
def restOfFalse : Bytes := [0x61, 0x6C, 0x73, 0x65]

theorem length_word_le {ws s r : Bytes} (h : word ws s = .ok r) : r.length ≤ s.length := by
  induction ws generalizing s with
  | nil => cases h; exact Nat.le_refl _
  | cons w ws ih =>
    cases s with
    | nil => cases h
    | cons b t =>
      simp only [word] at h
      split at h
      · exact Nat.le_succ_of_le (ih h)
      · cases h

end LineLogger.Json
