namespace LineLogger.Time

/-- A day of the proleptic Gregorian calendar. -/
structure Date where
  year : Int
  month : Nat
  day : Nat
  deriving DecidableEq, Repr

namespace Date

/-- Days from 0000-03-01 to 1970-01-01. Counting years from March puts the leap day last. -/
def epoch : Int := 719468

def daysBeforeMonth (m : Nat) : Nat := (153 * m + 2) / 5

def daysBeforeYear (y : Nat) : Nat := 365 * y + y / 4 - y / 100

def toDays (d : Date) : Int :=
  let y := if d.month ≤ 2 then d.year - 1 else d.year
  let m := if d.month ≤ 2 then d.month + 9 else d.month - 3
  let dayOfCycle := daysBeforeYear (y % 400).toNat + daysBeforeMonth m + (d.day - 1)
  y / 400 * 146097 + dayOfCycle - epoch

def ofDays (n : Int) : Date :=
  let z := n + epoch
  let c := (z % 146097).toNat
  let y := (c - c / 1460 + c / 36524 - c / 146096) / 365
  let r := c - daysBeforeYear y
  let m := (5 * r + 2) / 153
  let month := if m < 10 then m + 3 else m - 9
  { year := z / 146097 * 400 + y + (if month ≤ 2 then 1 else 0)
    month
    day := r - daysBeforeMonth m + 1 }

def isLeapYear (y : Int) : Bool := y % 4 == 0 && (y % 100 != 0 || y % 400 == 0)

def dayOfYear (d : Date) : Nat := (d.toDays - toDays ⟨d.year, 1, 1⟩).toNat + 1

/-- Sunday is 0. -/
def weekday (d : Date) : Nat := ((d.toDays + 4) % 7).toNat

def weekdayFromMonday (d : Date) : Nat := (d.weekday + 6) % 7

/-- The week of the year when the days before the first `first` make up week 0 and `since` days
have passed since the last `first`. -/
def weekSince (d : Date) (since : Nat) : Nat := (d.dayOfYear + 6 - since) / 7

/-- ISO years have 53 weeks if they begin on a Thursday, or are leap years and begin on a
Wednesday. -/
def isoWeeks (y : Int) : Nat :=
  let first := weekday ⟨y, 1, 1⟩
  if first = 4 || (first = 3 && isLeapYear y) then 53 else 52

def isoWeek (d : Date) : Int × Nat :=
  let w := (d.dayOfYear + 9 - d.weekdayFromMonday) / 7
  if w = 0 then (d.year - 1, isoWeeks (d.year - 1))
  else if isoWeeks d.year < w then (d.year + 1, 1)
  else (d.year, w)

end Date

end LineLogger.Time
