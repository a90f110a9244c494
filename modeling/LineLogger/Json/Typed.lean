import LineLogger.Json.Number
import LineLogger.Json.Strings

namespace LineLogger.Json

def describe (s : Bytes) : Read Found :=
  match s with
  | [] => faultPast [] .endInValue
  | b :: r =>
    if b = 0x6E then (word restOfNull r).map (.null, ·)
    else if b = 0x74 then (word restOfTrue r).map (.boolean true, ·)
    else if b = 0x66 then (word restOfFalse r).map (.boolean false, ·)
    else if startsNumber b then
      (readNumber s).map (fun p =>
        match p.1 with
        | .integer n => (.integer n, p.2)
        | .float x => (.float x, p.2))
    else if b = quote then (readString r).map (fun p => (.string p.1, p.2))
    else if b = openBracket then .ok (.sequence, s)
    else if b = openBrace then .ok (.map, s)
    else faultPast s .expectedValue

def refuse {α : Type} (expected : Expected) (s : Bytes) : Except Fault α :=
  match describe s with
  | .error f => .error f
  | .ok (found, r) => faultAt r (.mismatch found expected)

def toInt32 (x : Number) (r : Bytes) : Read Int32 :=
  match x with
  | .integer n =>
    if -Int.pow 2 31 ≤ n ∧ n < Int.pow 2 31 then .ok (Int32.ofInt n, r)
    else faultAt r (.integerOutOfRange n)
  | .float x => faultAt r (.mismatch (.float x) .integer)

def readInt32 (s : Bytes) : Read Int32 :=
  match skipBlank s with
  | [] => faultPast [] .endInValue
  | b :: r =>
    if startsNumber b then
      match readNumber (b :: r) with
      | .error f => .error f
      | .ok (x, t) => toInt32 x t
    else refuse .integer (b :: r)

def readBool (s : Bytes) : Read Bool :=
  match skipBlank s with
  | [] => faultPast [] .endInValue
  | b :: r =>
    if b = 0x74 then (word restOfTrue r).map (true, ·)
    else if b = 0x66 then (word restOfFalse r).map (false, ·)
    else refuse .boolean (b :: r)

def readText (s : Bytes) : Read String :=
  match skipBlank s with
  | [] => faultPast [] .endInValue
  | b :: r => if b = quote then readString r else refuse .string (b :: r)

def readNull (s : Bytes) : Except Fault Bytes :=
  match skipBlank s with
  | [] => faultPast [] .endInValue
  | b :: r => if b = 0x6E then word restOfNull r else refuse .unit (b :: r)

theorem refuse_ne_ok {α : Type} {e : Expected} {s : Bytes} {p : α} : refuse e s ≠ .ok p := by
  intro h
  unfold refuse at h
  split at h <;> cases h

theorem readInt32_shortens : Shortens readInt32 := by
  intro s n r h
  unfold readInt32 at h
  have l := length_skipBlank_le s
  split at h
  · cases h
  · next b t hb =>
    rw [hb] at l
    split at h
    · split at h
      · cases h
      · next x u hu =>
        have := readNumber_shortens _ _ _ hu
        unfold toInt32 at h
        split at h
        · split at h
          · cases h; omega
          · cases h
        · cases h
    · exact absurd h refuse_ne_ok

theorem readBool_shortens : Shortens readBool := by
  intro s v r h
  unfold readBool at h
  have l := length_skipBlank_le s
  split at h
  · cases h
  · next b t hb =>
    rw [hb] at l
    have key : ∀ ws v', (word ws t).map (v', ·) = Except.ok (v, r) → r.length < s.length := by
      intro ws v' hw
      cases hu : word ws t with
      | error f => rw [hu] at hw; cases hw
      | ok u =>
        rw [hu] at hw
        cases hw
        exact Nat.lt_of_le_of_lt (length_word_le hu) l
    split at h
    · exact key _ _ h
    split at h
    · exact key _ _ h
    · exact absurd h refuse_ne_ok

theorem readText_shortens : Shortens readText := by
  intro s v r h
  unfold readText at h
  have l := length_skipBlank_le s
  split at h
  · cases h
  · next b t hb =>
    rw [hb] at l
    split at h
    · exact Nat.lt_trans (readString_shortens _ _ _ h) l
    · exact absurd h refuse_ne_ok

/-- Reads a whole text. Only white space may follow the value. -/
def document {α : Type} (read : Bytes → Read α) (text : String) : Except Error α :=
  let s := Text.Utf8.ofString text
  match read s with
  | .error f => .error (f.locate s)
  | .ok (a, r) =>
    match skipBlank r with
    | [] => .ok a
    | b :: t => .error (Fault.locate s ⟨.trailingCharacters, (b :: t).length - 1⟩)

end LineLogger.Json
