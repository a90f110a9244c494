namespace LineLogger.Time

inductive Padding
  | zero
  | space
  | none
  deriving DecidableEq, Repr

inductive Quantity
  | year
  | century
  | yearOfCentury
  | isoYear
  | isoYearOfCentury
  | quarter
  | month
  | day
  | weekFromSunday
  | weekFromMonday
  | isoWeek
  | weekdayFromSunday
  | weekdayFromMonday
  | dayOfYear
  | hour
  | hourOfHalfDay
  | minute
  | second
  | nanosecond
  | unixSeconds
  deriving DecidableEq, Repr

inductive OffsetForm
  | minutes
  | minutesColon
  | seconds
  | hours
  | name
  deriving DecidableEq, Repr

inductive Item
  | literal (c : Char)
  | number (q : Quantity) (p : Padding)
  | weekday (long : Bool)
  | month (long : Bool)
  | halfDay (upper : Bool)
  | fraction (digits : Nat)
  | fractionAsNeeded
  | offset (form : OffsetForm)
  deriving DecidableEq, Repr

namespace Template

/-- The directives that show a number, with their own padding. Only they take a modifier. -/
def quantity? : Char → Option (Quantity × Padding)
  | 'Y' => some (.year, .zero)
  | 'C' => some (.century, .zero)
  | 'y' => some (.yearOfCentury, .zero)
  | 'G' => some (.isoYear, .zero)
  | 'g' => some (.isoYearOfCentury, .zero)
  | 'q' => some (.quarter, .zero)
  | 'm' => some (.month, .zero)
  | 'd' => some (.day, .zero)
  | 'e' => some (.day, .space)
  | 'U' => some (.weekFromSunday, .zero)
  | 'W' => some (.weekFromMonday, .zero)
  | 'V' => some (.isoWeek, .zero)
  | 'w' => some (.weekdayFromSunday, .zero)
  | 'u' => some (.weekdayFromMonday, .zero)
  | 'j' => some (.dayOfYear, .zero)
  | 'H' => some (.hour, .zero)
  | 'k' => some (.hour, .space)
  | 'I' => some (.hourOfHalfDay, .zero)
  | 'l' => some (.hourOfHalfDay, .space)
  | 'M' => some (.minute, .zero)
  | 'S' => some (.second, .zero)
  | 'f' => some (.nanosecond, .zero)
  | 's' => some (.unixSeconds, .none)
  | _ => none

def zeroPadded (q : Quantity) : Item := .number q .zero

def slashDate : List Item :=
  [zeroPadded .month, .literal '/', zeroPadded .day, .literal '/', zeroPadded .yearOfCentury]

def isoDate : List Item :=
  [zeroPadded .year, .literal '-', zeroPadded .month, .literal '-', zeroPadded .day]

def hourMinute : List Item := [zeroPadded .hour, .literal ':', zeroPadded .minute]

def clockTime : List Item := hourMinute ++ [.literal ':', zeroPadded .second]

def halfDayTime : List Item :=
  [zeroPadded .hourOfHalfDay, .literal ':', zeroPadded .minute, .literal ':', zeroPadded .second,
    .literal ' ', .halfDay true]

def dateAndTime : List Item :=
  [.weekday false, .literal ' ', .month false, .literal ' ', .number .day .space, .literal ' '] ++
    clockTime ++ [.literal ' ', zeroPadded .year]

def dayMonthYear : List Item :=
  [.number .day .space, .literal '-', .month false, .literal '-', zeroPadded .year]

def fullIso : List Item :=
  isoDate ++ .literal 'T' :: clockTime ++ [.fractionAsNeeded, .offset .minutesColon]

def shorthand? : Char → Option (List Item)
  | 'a' => some [.weekday false]
  | 'A' => some [.weekday true]
  | 'b' => some [.month false]
  | 'h' => some [.month false]
  | 'B' => some [.month true]
  | 'p' => some [.halfDay true]
  | 'P' => some [.halfDay false]
  | 'D' => some slashDate
  | 'x' => some slashDate
  | 'F' => some isoDate
  | 'R' => some hourMinute
  | 'T' => some clockTime
  | 'X' => some clockTime
  | 'r' => some halfDayTime
  | 'c' => some dateAndTime
  | 'v' => some dayMonthYear
  | 'n' => some [.literal '\n']
  | 't' => some [.literal '\t']
  | '%' => some [.literal '%']
  | 'z' => some [.offset .minutes]
  | 'Z' => some [.offset .name]
  | '+' => some fullIso
  | _ => none

def padding? : Char → Option Padding
  | '-' => some .none
  | '_' => some .space
  | '0' => some .zero
  | _ => none

def fractionDigits? : Char → Option Nat
  | '3' => some 3
  | '6' => some 6
  | '9' => some 9
  | _ => none

def colonForm : Nat → OffsetForm
  | 1 => .minutesColon
  | 2 => .seconds
  | _ => .hours

/-- How far the reader of a template is into a directive. -/
inductive State
  | text
  | percent
  | padded (p : Padding)
  | point
  | pointDigits (n : Nat)
  | digits (n : Nat)
  | colons (n : Nat)
  deriving DecidableEq, Repr

def afterPercent (c : Char) : Option (State × List Item) :=
  if let some p := padding? c then some (.padded p, [])
  else if let some n := fractionDigits? c then some (.digits n, [])
  else if c = '.' then some (.point, [])
  else if c = ':' then some (.colons 1, [])
  else if let some (q, p) := quantity? c then some (.text, [.number q p])
  else (shorthand? c).map (fun items => (.text, items))

/-- Reads one character. There is no next state if it cannot stand there. -/
def step : State → Char → Option (State × List Item)
  | .text, c => if c = '%' then some (.percent, []) else some (.text, [.literal c])
  | .percent, c => afterPercent c
  | .padded p, c => (quantity? c).map (fun q => (.text, [.number q.1 p]))
  | .point, c =>
    if c = 'f' then some (.text, [.fractionAsNeeded])
    else (fractionDigits? c).map (fun n => (.pointDigits n, []))
  | .pointDigits n, c => if c = 'f' then some (.text, [.literal '.', .fraction n]) else none
  | .digits n, c => if c = 'f' then some (.text, [.fraction n]) else none
  | .colons n, c =>
    if c = 'z' then some (.text, [.offset (colonForm n)])
    else if c = ':' ∧ n < 3 then some (.colons (n + 1), [])
    else none

def itemsFrom (s : State) : List Char → Option (List Item)
  | [] => if s = .text then some [] else none
  | c :: r =>
    match step s c with
    | none => none
    | some (t, items) => (itemsFrom t r).map (items ++ ·)

def items? (template : List Char) : Option (List Item) := itemsFrom .text template

end Template

end LineLogger.Time
