import LineLogger.Json.Ignored
import LineLogger.Proofs.Utf8

namespace LineLogger.Json

def Blanks (cs : List Char) : Prop := ∀ c ∈ cs, c = ' ' ∨ c = '\n' ∨ c = '\t' ∨ c = '\r'

instance (cs : List Char) : Decidable (Blanks cs) := List.decidableBAll _ cs

def hexValue? (c : Char) : Option Nat :=
  if '0' ≤ c ∧ c ≤ '9' then some (c.toNat - 48)
  else if 'a' ≤ c ∧ c ≤ 'f' then some (c.toNat - 87)
  else if 'A' ≤ c ∧ c ≤ 'F' then some (c.toNat - 55)
  else none

inductive HexFour : Nat → List Char → Prop
  | mk {a b c d : Char} {k l m n : Nat} (ha : hexValue? a = some k) (hb : hexValue? b = some l)
      (hc : hexValue? c = some m) (hd : hexValue? d = some n) :
      HexFour (((k * 16 + l) * 16 + m) * 16 + n) [a, b, c, d]

def IsPlain (c : Char) : Prop := 0x20 ≤ c.toNat ∧ c ≠ '"' ∧ c ≠ '\\'
  deriving Decidable

def escaped? : Char → Option Char
  | '"' => some '"'
  | '\\' => some '\\'
  | '/' => some '/'
  | 'b' => some '\x08'
  | 'f' => some '\x0C'
  | 'n' => some '\n'
  | 'r' => some '\r'
  | 't' => some '\t'
  | _ => none

/-- The ways to write a character in a string. One beyond 16 bits may be a pair of surrogates. -/
inductive Spelled : Char → List Char → Prop
  | plain {c : Char} (h : IsPlain c) : Spelled c [c]
  | short {e c : Char} (h : escaped? e = some c) : Spelled c ['\\', e]
  | code {n : Nat} {cs : List Char} (h : HexFour n cs) (hn : n < 0xD800 ∨ 0xDFFF < n) :
      Spelled (.ofNat n) ('\\' :: 'u' :: cs)
  | pair {m n : Nat} {cs ds : List Char} (hm : HexFour m cs) (hn : HexFour n ds)
      (hh : isHighSurrogate m = true) (hl : isLowSurrogate n = true) :
      Spelled (ofSurrogates m n) ('\\' :: 'u' :: cs ++ '\\' :: 'u' :: ds)

/-- What stands between the quotes of a string without lone surrogates. -/
inductive Written : List Char → List Char → Prop
  | nil : Written [] []
  | cons {c : Char} {s cs ds : List Char} (h : Spelled c cs) (hs : Written s ds) :
      Written (c :: s) (cs ++ ds)

inductive Piece : List Char → Prop
  | plain {c : Char} (h : IsPlain c) : Piece [c]
  | short {e c : Char} (h : escaped? e = some c) : Piece ['\\', e]
  | code {n : Nat} {cs : List Char} (h : HexFour n cs) : Piece ('\\' :: 'u' :: cs)

/-- What stands between the quotes of a string, which may have lone surrogates. -/
inductive Pieces : List Char → Prop
  | nil : Pieces []
  | cons {cs ds : List Char} (h : Piece cs) (hs : Pieces ds) : Pieces (cs ++ ds)

def Digits (cs : List Char) : Prop := ∀ c ∈ cs, c.isDigit = true

instance (cs : List Char) : Decidable (Digits cs) := List.decidableBAll _ cs

inductive Whole : List Char → Prop
  | zero : Whole ['0']
  | digits {c : Char} {cs : List Char} (hc : c.isDigit = true) (h0 : c ≠ '0') (h : Digits cs) :
      Whole (c :: cs)

inductive Fraction : List Char → Prop
  | none : Fraction []
  | some {cs : List Char} (h : Digits cs) (hn : cs ≠ []) : Fraction ('.' :: cs)

inductive Sign : List Char → Prop
  | none : Sign []
  | plus : Sign ['+']
  | minus : Sign ['-']

inductive Exponent : List Char → Prop
  | none : Exponent []
  | some {e : Char} {sign cs : List Char} (he : e = 'e' ∨ e = 'E') (hs : Sign sign)
      (h : Digits cs) (hn : cs ≠ []) : Exponent (e :: sign ++ cs)

inductive Unsigned : List Char → Prop
  | mk {cs fs es : List Char} (h : Whole cs) (hf : Fraction fs) (he : Exponent es) :
      Unsigned (cs ++ fs ++ es)

inductive Scalar : List Char → Prop
  | nullWord : Scalar ['n', 'u', 'l', 'l']
  | trueWord : Scalar ['t', 'r', 'u', 'e']
  | falseWord : Scalar ['f', 'a', 'l', 's', 'e']
  | string {cs : List Char} (h : Pieces cs) : Scalar ('"' :: cs ++ ['"'])
  | positive {cs : List Char} (h : Unsigned cs) : Scalar cs
  | negative {cs : List Char} (h : Unsigned cs) : Scalar ('-' :: cs)

namespace Bracket

def opening : Bracket → Char
  | .list => '['
  | .object => '\x7b'

def closing : Bracket → Char
  | .list => ']'
  | .object => '\x7d'

end Bracket

inductive Keyed (cs : List Char) : List Char → Prop
  | mk {w w' : List Char} (hw : Blanks w) (hw' : Blanks w') :
      Keyed cs (w ++ '"' :: cs ++ '"' :: w' ++ [':'])

inductive Label : Bracket → List Char → Prop
  | none : Label .list []
  | key {cs l : List Char} (h : Pieces cs) (hl : Keyed cs l) : Label .object l

inductive Part
  | value
  | opened (k : Bracket)
  | behind (k : Bracket)

/-- The texts of values, of what follows an opening bracket, and of what follows an element, both up
to the closing bracket. -/
inductive Derives : Part → List Char → Prop
  | scalar {cs : List Char} (h : Scalar cs) : Derives .value cs
  | nested (k : Bracket) {cs : List Char} (h : Derives (.opened k) cs) :
      Derives .value (k.opening :: cs)
  | empty (k : Bracket) {w : List Char} (hw : Blanks w) : Derives (.opened k) (w ++ [k.closing])
  | first {k : Bracket} {l w v t : List Char} (hl : Label k l) (hw : Blanks w)
      (hv : Derives .value v) (ht : Derives (.behind k) t) : Derives (.opened k) (l ++ w ++ v ++ t)
  | last (k : Bracket) {w : List Char} (hw : Blanks w) : Derives (.behind k) (w ++ [k.closing])
  | more {k : Bracket} {w l w' v t : List Char} (hw : Blanks w) (hl : Label k l) (hw' : Blanks w')
      (hv : Derives .value v) (ht : Derives (.behind k) t) :
      Derives (.behind k) (w ++ ',' :: l ++ w' ++ v ++ t)

abbrev Pair := List Char × List Char

/-- The texts of objects behind the opening brace (`true`) or behind a member, with their members.
What a key or a value may be is left open. -/
inductive Members : Bool → List Pair → List Char → Prop
  | last (first : Bool) {w : List Char} (hw : Blanks w) : Members first [] (w ++ ['\x7d'])
  | first {m : Pair} {l w t : List Char} {ms : List Pair} (hl : Keyed m.1 l) (hw : Blanks w)
      (ht : Members false ms t) : Members true (m :: ms) (l ++ w ++ m.2 ++ t)
  | more {m : Pair} {w l w' t : List Char} {ms : List Pair} (hw : Blanks w) (hl : Keyed m.1 l)
      (hw' : Blanks w') (ht : Members false ms t) :
      Members false (m :: ms) (w ++ ',' :: l ++ w' ++ m.2 ++ t)

end LineLogger.Json
