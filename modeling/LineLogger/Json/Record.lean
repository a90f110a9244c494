import LineLogger.Json.Ignored
import LineLogger.Json.Typed

namespace LineLogger.Json

/-- A member that a record knows: its key, and how its value is read and put in place. -/
structure Member (ρ : Type) where
  key : String
  read : Bytes → Read (ρ → ρ)
  shortens : Shortens read

def Member.of {ρ α : Type} (key : String) (read : Bytes → Read α) (h : Shortens read)
    (set : α → ρ → ρ) : Member ρ :=
  { key
    read := fun s => (read s).map (fun p => (set p.1, p.2))
    shortens := h.map set }

/-- A key that was seen before. The object may end behind it before the fault is placed. -/
def duplicate {α : Type} (key : String) (s : Bytes) : Except Fault α :=
  match skipBlank s with
  | [] => faultAt [] (.duplicateField key)
  | b :: r => faultAt (if b = closeBrace then r else b :: r) (.duplicateField key)

def readColon (s : Bytes) : Except Fault Bytes :=
  match skipBlank s with
  | [] => faultPast [] .endInObject
  | b :: r => if b = colon then .ok r else faultPast (b :: r) .expectedColon

theorem length_readColon {s r : Bytes} (h : readColon s = .ok r) : r.length < s.length := by
  unfold readColon at h
  have l := length_skipBlank_le s
  split at h
  · cases h
  · next b t hb =>
    rw [hb] at l
    split at h
    · cases h; exact l
    · cases h

inductive Turn
  | done (rest : Bytes)
  | key (rest : Bytes)

def Turn.rest : Turn → Bytes
  | .done r => r
  | .key r => r

def nextKey (first : Bool) (s : Bytes) : Except Fault Turn :=
  match skipBlank s with
  | [] => faultPast [] .endInObject
  | b :: r =>
    if b = closeBrace then .ok (.done r)
    else if first then
      if b = quote then .ok (.key r) else faultPast (b :: r) .keyMustBeString
    else if b = comma then
      match skipBlank r with
      | [] => faultPast [] .endInValue
      | c :: t =>
        if c = quote then .ok (.key t)
        else if c = closeBrace then faultPast (c :: t) .trailingComma
        else faultPast (c :: t) .keyMustBeString
    else faultPast (b :: r) .expectedCommaOrBrace

theorem length_nextKey {first : Bool} {s : Bytes} {t : Turn} (h : nextKey first s = .ok t) :
    t.rest.length < s.length := by
  unfold nextKey at h
  have l := length_skipBlank_le s
  split at h
  · cases h
  · next b r hb =>
    rw [hb] at l
    split at h
    · cases h; exact l
    split at h
    · split at h
      · cases h; exact l
      · cases h
    split at h
    · have l₂ := length_skipBlank_le r
      split at h
      · cases h
      · next c u hc =>
        rw [hc] at l₂
        split at h
        · cases h
          simp only [List.length_cons, Turn.rest] at l l₂ ⊢
          omega
        · split at h <;> cases h
    · cases h

/-- The value of a member, behind its key. Members that no field knows are passed over. -/
def readMember {ρ : Type} (fields : List (Member ρ)) (seen : List String) (key : String)
    (s : Bytes) : Read (ρ → ρ) :=
  match fields.find? (fun f => f.key == key) with
  | some f =>
    if seen.contains key then duplicate key s
    else
      match readColon s with
      | .error e => .error e
      | .ok r => f.read r
  | none =>
    match readColon s with
    | .error e => .error e
    | .ok r => (skipValue r).map (id, ·)

theorem readMember_shortens {ρ : Type} (fields : List (Member ρ)) (seen : List String)
    (key : String) : Shortens (readMember fields seen key) := by
  intro s g r h
  unfold readMember at h
  split at h
  · next f _ =>
    split at h
    · unfold duplicate at h
      split at h <;> cases h
    · split at h
      · cases h
      · next t ht => exact Nat.lt_trans (f.shortens _ _ _ h) (length_readColon ht)
  · split at h
    · cases h
    · next t ht =>
      cases hu : skipValue t with
      | error e => rw [hu] at h; cases h
      | ok u =>
        rw [hu] at h
        cases h
        exact Nat.lt_trans (length_skipValue hu) (length_readColon ht)

def readMembers {ρ : Type} (fields : List (Member ρ)) (first : Bool) (seen : List String) (v : ρ)
    (s : Bytes) : Read ρ :=
  match h : nextKey first s with
  | .error e => .error e
  | .ok (.done r) => .ok (v, r)
  | .ok (.key r) =>
    match h₂ : readString r with
    | .error e => .error e
    | .ok (key, t) =>
      match h₃ : readMember fields seen key t with
      | .error e => .error e
      | .ok (set, u) =>
        have : u.length < s.length :=
          Nat.lt_trans (readMember_shortens fields seen key t set u h₃)
            (Nat.lt_trans (readString_shortens r key t h₂) (length_nextKey h))
        readMembers fields false (key :: seen) (set v) u
termination_by s.length

theorem readMembers_shortens {ρ : Type} (fields : List (Member ρ)) (first : Bool)
    (seen : List String) (v : ρ) : Shortens (readMembers fields first seen v) := by
  intro s w r h
  fun_induction readMembers fields first seen v s with
  | case1 => cases h
  | case2 first seen v s t ht => cases h; exact length_nextKey ht
  | case3 => cases h
  | case4 => cases h
  | case5 first seen v s t ht key u hu set x hx hlt ih => exact Nat.lt_trans (ih h) hlt

def readListEnd (s : Bytes) : Except Fault Bytes :=
  match skipBlank s with
  | [] => faultPast [] .endInList
  | b :: r =>
    if b = closeBracket then .ok r
    else if b = comma then
      match skipBlank r with
      | [] => faultPast [] .trailingCharacters
      | c :: t =>
        faultPast (c :: t) (if c = closeBracket then .trailingComma else .trailingCharacters)
    else faultPast (b :: r) .trailingCharacters

def nextElement (first : Bool) (s : Bytes) : Except Fault (Option Bytes) :=
  match skipBlank s with
  | [] => faultPast [] .endInList
  | b :: r =>
    if b = closeBracket then .ok none
    else if first then .ok (some (b :: r))
    else if b = comma then
      match skipBlank r with
      | [] => faultPast [] .endInValue
      | c :: t =>
        if c = closeBracket then faultPast (c :: t) .trailingComma else .ok (some (c :: t))
    else faultPast (b :: r) .expectedCommaOrBracket

/-- The fields of a record in order, behind an opening bracket. Those that are missing at the end
keep their values. -/
def readElements {ρ : Type} (fields : List (Member ρ)) (first : Bool) (v : ρ) (s : Bytes) :
    Read ρ :=
  match fields with
  | [] => (readListEnd s).map (v, ·)
  | f :: fs =>
    match nextElement first s with
    | .error e => .error e
    | .ok none => (readListEnd s).map (v, ·)
    | .ok (some r) =>
      match f.read r with
      | .error e => .error e
      | .ok (set, t) => readElements fs false (set v) t

theorem length_readListEnd {s r : Bytes} (h : readListEnd s = .ok r) : r.length < s.length := by
  unfold readListEnd at h
  have l := length_skipBlank_le s
  split at h
  · cases h
  · next b t hb =>
    rw [hb] at l
    split at h
    · cases h; exact l
    · split at h
      · split at h <;> cases h
      · cases h

theorem length_nextElement {first : Bool} {s r : Bytes} (h : nextElement first s = .ok (some r)) :
    r.length ≤ s.length := by
  unfold nextElement at h
  have l := length_skipBlank_le s
  split at h
  · cases h
  · next b t hb =>
    rw [hb] at l
    split at h
    · cases h
    split at h
    · cases h; exact l
    split at h
    · have l₂ := length_skipBlank_le t
      split at h
      · cases h
      · next c u hc =>
        rw [hc] at l₂
        split at h
        · cases h
        · cases h
          simp only [List.length_cons] at l l₂ ⊢
          omega
    · cases h

theorem readElements_shortens {ρ : Type} (fields : List (Member ρ)) (first : Bool) (v : ρ) :
    Shortens (readElements fields first v) := by
  intro s w r h
  have close : ∀ {s : Bytes} {v : ρ}, (readListEnd s).map (v, ·) = .ok (w, r) →
      r.length < s.length := by
    intro s v hc
    cases ht : readListEnd s with
    | error e => rw [ht] at hc; cases hc
    | ok t =>
      rw [ht] at hc
      cases hc
      exact length_readListEnd ht
  induction fields generalizing first v s with
  | nil => exact close h
  | cons f fs ih =>
    simp only [readElements] at h
    split at h
    · cases h
    · exact close h
    · next t ht =>
      split at h
      · cases h
      · next set u hu =>
        have l₁ := length_nextElement ht
        have l₂ := f.shortens _ _ _ hu
        exact Nat.lt_trans (ih false (set v) u h) (Nat.lt_of_lt_of_le l₂ l₁)

/-- A record in either form, starting from the values of the fields that may be missing. -/
def readRecord {ρ : Type} (name : String) (fields : List (Member ρ)) (v : ρ) (s : Bytes) : Read ρ :=
  match skipBlank s with
  | [] => faultPast [] .endInValue
  | b :: r =>
    if b = openBrace then readMembers fields true [] v r
    else if b = openBracket then readElements fields true v r
    else refuse (.record name) (b :: r)

theorem readRecord_shortens {ρ : Type} (name : String) (fields : List (Member ρ)) (v : ρ) :
    Shortens (readRecord name fields v) := by
  intro s w r h
  unfold readRecord at h
  have l := length_skipBlank_le s
  split at h
  · cases h
  · next b t hb =>
    rw [hb] at l
    split at h
    · exact Nat.lt_trans (readMembers_shortens _ _ _ _ _ _ _ h) l
    split at h
    · exact Nat.lt_trans (readElements_shortens _ _ _ _ _ _ h) l
    · exact absurd h refuse_ne_ok

end LineLogger.Json
