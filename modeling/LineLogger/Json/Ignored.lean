import LineLogger.Json.Number
import LineLogger.Json.Strings

namespace LineLogger.Json

/-- What follows a backslash in a string that is passed over. Surrogates need not be paired. -/
def skipEscape (s : Bytes) : Except Fault Bytes :=
  match s with
  | [] => faultAt [] .endInString
  | b :: r =>
    if (plainEscape? b).isSome then .ok r
    else if b = letterU then (hexFour r).map (·.2)
    else faultAt r .invalidEscape

theorem length_skipEscape {s r : Bytes} (h : skipEscape s = .ok r) : r.length < s.length := by
  unfold skipEscape at h
  split at h
  · cases h
  · next b t =>
    split at h
    · cases h; exact Nat.lt_succ_self _
    · split at h
      · cases ht : hexFour t with
        | error f => rw [ht] at h; cases h
        | ok p =>
          rw [ht] at h
          cases h
          exact Nat.lt_succ_of_lt (hexFour_shortens t p.1 p.2 ht)
      · cases h

def skipString (s : Bytes) : Except Fault Bytes :=
  match s with
  | [] => faultAt [] .endInString
  | b :: r =>
    if b = quote then .ok r
    else if b = backslash then
      match h : skipEscape r with
      | .error f => .error f
      | .ok t =>
        have : t.length < r.length := length_skipEscape h
        skipString t
    else if b < 0x20 then faultAt (b :: r) .controlCharacter
    else skipString r
termination_by s.length
decreasing_by
  · simp only [List.length_cons]
    omega
  · exact Nat.lt_succ_self _

theorem length_skipString {s r : Bytes} (h : skipString s = .ok r) : r.length < s.length := by
  induction hn : s.length using Nat.strongRecOn generalizing s with
  | ind n ih =>
    subst hn
    rw [skipString.eq_def] at h
    split at h
    · cases h
    · next b t =>
      simp only [List.length_cons] at ih ⊢
      split at h
      · cases h; omega
      · split at h
        · split at h
          · cases h
          · next u hu =>
            have l := length_skipEscape hu
            have := ih u.length (by omega) h rfl
            omega
        · split at h
          · cases h
          · have := ih t.length (by omega) h rfl
            omega

def startsWithDigit (s : Bytes) : Bool := (s.head?.map isDigit).getD false

def skipExponent (s : Bytes) : Except Fault Bytes :=
  let t := match s with
    | 0x2B :: r => r
    | 0x2D :: r => r
    | _ => s
  match t with
  | [] => faultAt [] .invalidNumber
  | b :: r => if isDigit b then .ok (r.dropWhile isDigit) else faultAt r .invalidNumber

def skipNumberEnd (s : Bytes) : Except Fault Bytes :=
  match s with
  | [] => .ok []
  | b :: r => if isExponent b then skipExponent r else .ok (b :: r)

def skipUnsigned (s : Bytes) : Except Fault Bytes :=
  match s with
  | [] => faultAt [] .invalidNumber
  | b :: r =>
    if b = 0x30 && startsWithDigit r then faultPast r .invalidNumber
    else if isDigit b then
      let t := if b = 0x30 then r else r.dropWhile isDigit
      match t with
      | [] => .ok []
      | c :: u =>
        if isPoint c then
          if startsWithDigit u then skipNumberEnd (u.dropWhile isDigit)
          else faultPast u .invalidNumber
        else skipNumberEnd t
    else faultAt r .invalidNumber

theorem length_skipExponent {s r : Bytes} (h : skipExponent s = .ok r) :
    r.length ≤ s.length := by
  unfold skipExponent at h
  have key : ∀ t : Bytes, t.length ≤ s.length →
      (match t with
        | [] => faultAt [] .invalidNumber
        | b :: r => if isDigit b then .ok (r.dropWhile isDigit) else faultAt r .invalidNumber)
        = Except.ok r → r.length ≤ s.length := by
    intro t ht hr
    split at hr
    · cases hr
    · next b u =>
      split at hr
      · cases hr
        have := length_dropWhile_le isDigit u
        simp only [List.length_cons] at ht
        omega
      · cases hr
  refine key _ ?_ h
  split
  · exact Nat.le_succ _
  · exact Nat.le_succ _
  · exact Nat.le_refl _

theorem length_skipNumberEnd {s r : Bytes} (h : skipNumberEnd s = .ok r) :
    r.length ≤ s.length := by
  unfold skipNumberEnd at h
  split at h
  · cases h; exact Nat.le_refl _
  · split at h
    · exact Nat.le_succ_of_le (length_skipExponent h)
    · cases h; exact Nat.le_refl _

theorem length_skipUnsigned {s r : Bytes} (h : skipUnsigned s = .ok r) :
    r.length < s.length := by
  unfold skipUnsigned at h
  split at h
  · cases h
  · next b t =>
    split at h
    · cases h
    · split at h
      · have l : (if b = 0x30 then t else t.dropWhile isDigit).length ≤ t.length := by
          split
          · exact Nat.le_refl _
          · exact length_dropWhile_le isDigit t
        simp only at h
        split at h
        · cases h; exact Nat.zero_lt_succ _
        · next c u hu =>
          rw [hu] at l h
          simp only [List.length_cons] at l ⊢
          split at h
          · split at h
            · have := length_skipNumberEnd h
              have := length_dropWhile_le isDigit u
              omega
            · cases h
          · have := length_skipNumberEnd h
            simp only [List.length_cons] at this
            omega
      · cases h

def skipScalar (b : UInt8) (r : Bytes) : Except Fault Bytes :=
  if b = 0x6E then word restOfNull r
  else if b = 0x74 then word restOfTrue r
  else if b = 0x66 then word restOfFalse r
  else if b = quote then skipString r
  else if b = minus then skipUnsigned r
  else if isDigit b then skipUnsigned (b :: r)
  else faultPast (b :: r) .expectedValue

theorem length_skipScalar {b : UInt8} {s r : Bytes} (h : skipScalar b s = .ok r) :
    r.length ≤ s.length := by
  unfold skipScalar at h
  split at h
  · exact length_word_le h
  split at h
  · exact length_word_le h
  split at h
  · exact length_word_le h
  split at h
  · exact Nat.le_of_lt (length_skipString h)
  split at h
  · exact Nat.le_of_lt (length_skipUnsigned h)
  split at h
  · exact Nat.le_of_lt_succ (length_skipUnsigned h)
  · cases h

inductive Bracket
  | list
  | object

namespace Bracket

def close : Bracket → UInt8
  | .list => closeBracket
  | .object => closeBrace

def ended : Bracket → Cause
  | .list => .endInList
  | .object => .endInObject

def separator : Bracket → Cause
  | .list => .expectedCommaOrBracket
  | .object => .expectedCommaOrBrace

end Bracket

def skipKey (s : Bytes) : Except Fault Bytes :=
  match skipBlank s with
  | [] => faultPast [] .endInObject
  | b :: r =>
    if b = quote then
      match skipString r with
      | .error f => .error f
      | .ok t =>
        match skipBlank t with
        | [] => faultPast [] .endInObject
        | c :: u => if c = colon then .ok u else faultPast (c :: u) .expectedColon
    else faultPast (b :: r) .keyMustBeString

def Bracket.skipLabel : Bracket → Bytes → Except Fault Bytes
  | .list, s => .ok s
  | .object, s => skipKey s

theorem length_skipLabel {k : Bracket} {s r : Bytes} (h : k.skipLabel s = .ok r) :
    r.length ≤ s.length := by
  cases k with
  | list => cases h; exact Nat.le_refl _
  | object =>
    simp only [Bracket.skipLabel, skipKey] at h
    have l := length_skipBlank_le s
    split at h
    · cases h
    · next b t hb =>
      rw [hb] at l
      split at h
      · split at h
        · cases h
        · next u hu =>
          have l₂ := length_skipString hu
          have l₃ := length_skipBlank_le u
          split at h
          · cases h
          · next c v hc =>
            rw [hc] at l₃
            split at h
            · cases h
              simp only [List.length_cons] at l l₃
              omega
            · cases h
      · cases h

/-- Where the reader of an ignored value stands: before a value, just inside a bracket, or
behind a value. -/
inductive Stage
  | value
  | opened
  | behind

def Stage.weight : Stage → Nat
  | .opened => 1
  | _ => 0

/-- Passes over a value. The open brackets are a list, so values may nest without limit. -/
def skip (stage : Stage) (brackets : List Bracket) (s : Bytes) : Except Fault Bytes :=
  match stage, brackets with
  | .value, ks =>
    match h : skipBlank s with
    | [] => faultPast [] .endInValue
    | b :: r =>
      have : r.length < s.length := by
        have := length_skipBlank_le s
        rw [h] at this
        exact this
      if b = openBracket then skip .opened (.list :: ks) r
      else if b = openBrace then skip .opened (.object :: ks) r
      else
        match h' : skipScalar b r with
        | .error f => .error f
        | .ok t =>
          have : t.length ≤ r.length := length_skipScalar h'
          skip .behind ks t
  | .opened, [] => .ok s
  | .opened, k :: ks =>
    match h : skipBlank s with
    | [] => faultPast [] k.ended
    | b :: r =>
      have : r.length < s.length := by
        have := length_skipBlank_le s
        rw [h] at this
        exact this
      if b = k.close then skip .behind ks r
      else
        match h' : k.skipLabel (b :: r) with
        | .error f => .error f
        | .ok t =>
          have : t.length ≤ r.length + 1 := length_skipLabel h'
          skip .value (k :: ks) t
  | .behind, [] => .ok s
  | .behind, k :: ks =>
    match h : skipBlank s with
    | [] => faultPast [] k.ended
    | b :: r =>
      have : r.length < s.length := by
        have := length_skipBlank_le s
        rw [h] at this
        exact this
      if b = comma then
        match h' : k.skipLabel r with
        | .error f => .error f
        | .ok t =>
          have : t.length ≤ r.length := length_skipLabel h'
          skip .value (k :: ks) t
      else if b = k.close then skip .behind ks r
      else faultPast (b :: r) k.separator
termination_by 2 * s.length + stage.weight
decreasing_by
  all_goals
    simp only [Stage.weight]
    omega

def skipValue (s : Bytes) : Except Fault Bytes := skip .value [] s

theorem length_skip_le {stage : Stage} {ks : List Bracket} {s r : Bytes}
    (h : skip stage ks s = .ok r) : r.length ≤ s.length := by
  fun_induction skip stage ks s with
  | case1 => cases h
  | case2 s ks t hb hlt ih => exact Nat.le_trans (ih h) (Nat.le_of_lt hlt)
  | case3 s ks t hb hlt _ ih => exact Nat.le_trans (ih h) (Nat.le_of_lt hlt)
  | case4 => cases h
  | case5 s ks b t hb hlt _ _ u hu hle ih => have := ih h; omega
  | case6 => cases h; exact Nat.le_refl _
  | case7 => cases h
  | case8 s k ks t hb hlt ih => have := ih h; omega
  | case9 => cases h
  | case10 s k ks b t hb hlt _ u hu hle ih => have := ih h; omega
  | case11 => cases h; exact Nat.le_refl _
  | case12 => cases h
  | case13 => cases h
  | case14 s k ks t hb hlt u hu hle ih => have := ih h; omega
  | case15 s k ks t hb hlt _ ih => have := ih h; omega
  | case16 => cases h

theorem length_skipValue {s r : Bytes} (h : skipValue s = .ok r) : r.length < s.length := by
  unfold skipValue at h
  rw [skip.eq_def] at h
  simp only at h
  have l := length_skipBlank_le s
  split at h
  · cases h
  · next b t hb =>
    rw [hb] at l
    simp only [List.length_cons] at l
    split at h
    · have := length_skip_le h; omega
    · split at h
      · have := length_skip_le h; omega
      · split at h
        · cases h
        · next u hu =>
          have := length_skipScalar hu
          have := length_skip_le h
          omega

end LineLogger.Json
