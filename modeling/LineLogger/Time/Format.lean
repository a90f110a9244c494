import LineLogger.Decimal.Digits
import LineLogger.Time.Instant
import LineLogger.Time.Template

namespace LineLogger.Time

def weekdayName : Nat → List Char
  | 0 => "Sunday".toList
  | 1 => "Monday".toList
  | 2 => "Tuesday".toList
  | 3 => "Wednesday".toList
  | 4 => "Thursday".toList
  | 5 => "Friday".toList
  | _ => "Saturday".toList

def monthName : Nat → List Char
  | 1 => "January".toList
  | 2 => "February".toList
  | 3 => "March".toList
  | 4 => "April".toList
  | 5 => "May".toList
  | 6 => "June".toList
  | 7 => "July".toList
  | 8 => "August".toList
  | 9 => "September".toList
  | 10 => "October".toList
  | 11 => "November".toList
  | _ => "December".toList

/-- Zeros go between the sign and the digits, spaces in front of the sign. The sign counts
towards the width. -/
def padNumber (width : Nat) (plus : Bool) (p : Padding) (n : Int) : List Char :=
  let sign := if n < 0 then ['-'] else if plus then ['+'] else []
  let ds := Decimal.digits n.natAbs
  let fill := width - (sign.length + ds.length)
  match p with
  | .none => sign ++ ds
  | .zero => sign ++ List.replicate fill '0' ++ ds
  | .space => List.replicate fill ' ' ++ sign ++ ds

/-- Two places. The first one holds the tens even if there are more than nine. -/
def twoPlaces (p : Padding) (n : Nat) : List Char :=
  let ones := Decimal.digitChar (n % 10)
  match n / 10, p with
  | 0, .none => [ones]
  | 0, .space => [' ', ones]
  | t, _ => [Decimal.digitChar t, ones]

/-- Four places. Years that need more, or lie before year 0, always have a sign. -/
def yearText (p : Padding) (y : Int) : List Char :=
  if 0 ≤ y ∧ y < 10000 then padNumber 4 false p y else padNumber 5 true p y

namespace Quantity

def text (q : Quantity) (p : Padding) (i : Instant) : List Char :=
  let d := i.date
  match q with
  | .year => yearText p d.year
  | .century => twoPlaces p (d.year / 100 % 256).toNat
  | .yearOfCentury => twoPlaces p (d.year % 100).toNat
  | .isoYear => yearText p d.isoWeek.1
  | .isoYearOfCentury => twoPlaces p (d.isoWeek.1 % 100).toNat
  | .quarter => [Decimal.digitChar ((d.month - 1) / 3 + 1)]
  | .month => twoPlaces p d.month
  | .day => twoPlaces p d.day
  | .weekFromSunday => twoPlaces p (d.weekSince d.weekday)
  | .weekFromMonday => twoPlaces p (d.weekSince d.weekdayFromMonday)
  | .isoWeek => twoPlaces p d.isoWeek.2
  | .weekdayFromSunday => [Decimal.digitChar d.weekday]
  | .weekdayFromMonday => [Decimal.digitChar (d.weekdayFromMonday + 1)]
  | .dayOfYear => padNumber 3 false p d.dayOfYear
  | .hour => twoPlaces p i.hour
  | .hourOfHalfDay => twoPlaces p ((i.hour + 11) % 12 + 1)
  | .minute => twoPlaces p i.minute
  | .second => twoPlaces p i.second
  | .nanosecond => padNumber 9 false p i.fraction
  | .unixSeconds => padNumber 9 false p i.seconds

end Quantity

namespace OffsetForm

def text (form : OffsetForm) (offset : Int) : List Char :=
  let sign := if offset < 0 then '-' else '+'
  let a := offset.natAbs
  let two := twoPlaces .zero
  let minutes := (a + 30) / 60
  match form with
  | .minutes => sign :: two (minutes / 60) ++ two (minutes % 60)
  | .minutesColon => sign :: two (minutes / 60) ++ ':' :: two (minutes % 60)
  | .seconds => sign :: two (a / 3600) ++ ':' :: two (a / 60 % 60) ++ ':' :: two (a % 60)
  | .hours => sign :: two (a / 3600)
  | .name =>
    let seconds := if a % 60 = 0 then [] else ':' :: two (a % 60)
    sign :: two (a / 3600) ++ ':' :: two (a / 60 % 60) ++ seconds

end OffsetForm

def fractionText (digits : Nat) (i : Instant) : List Char :=
  (padNumber 9 false .zero i.fraction).take digits

/-- A point and three, six or nine digits, the fewest that are exact. A whole second has none. -/
def fractionAsNeeded (i : Instant) : List Char :=
  if i.fraction = 0 then []
  else if i.fraction % 1000000 = 0 then '.' :: fractionText 3 i
  else if i.fraction % 1000 = 0 then '.' :: fractionText 6 i
  else '.' :: fractionText 9 i

namespace Item

def text : Item → Instant → List Char
  | .literal c, _ => [c]
  | .number q p, i => q.text p i
  | .weekday long, i => (weekdayName i.date.weekday).take (if long then 9 else 3)
  | .month long, i => (monthName i.date.month).take (if long then 9 else 3)
  | .halfDay true, i => if i.hour < 12 then ['A', 'M'] else ['P', 'M']
  | .halfDay false, i => if i.hour < 12 then ['a', 'm'] else ['p', 'm']
  | .fraction n, i => fractionText n i
  | .fractionAsNeeded, i => Time.fractionAsNeeded i
  | .offset form, i => form.text i.offset

end Item

structure Format where
  template : String := "%Y-%m-%dT%H:%M:%S%.3f%z"
  deriving DecidableEq, Repr

namespace Format

/-- All items of the template one after the other, or the template itself if one of its
directives is invalid. -/
def renderChars (f : Format) (i : Instant) : List Char :=
  match Template.items? f.template.toList with
  | some items => items.flatMap (·.text i)
  | none => f.template.toList

def render (f : Format) (i : Instant) : String := String.ofList (f.renderChars i)

end Format

end LineLogger.Time
