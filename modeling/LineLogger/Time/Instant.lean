import LineLogger.Time.Calendar

namespace LineLogger.Time

def nanosPerSecond : Nat := 1000000000

/-- Unix seconds, nanoseconds, and the offset of local time in seconds, east of Greenwich positive.
Nanoseconds from a whole second on are inside a leap second. -/
structure Instant where
  seconds : Int
  nanos : Nat
  offset : Int
  deriving DecidableEq, Repr

namespace Instant

def localSeconds (i : Instant) : Int := i.seconds + i.offset

def date (i : Instant) : Date := Date.ofDays (i.localSeconds / 86400)

def secondOfDay (i : Instant) : Nat := (i.localSeconds % 86400).toNat

def hour (i : Instant) : Nat := i.secondOfDay / 3600

def minute (i : Instant) : Nat := i.secondOfDay / 60 % 60

def second (i : Instant) : Nat := i.secondOfDay % 60 + i.nanos / nanosPerSecond

def fraction (i : Instant) : Nat := i.nanos % nanosPerSecond

def shift (i : Instant) (n : Int) : Instant :=
  let total := i.nanos + n
  { i with
    seconds := i.seconds + total / nanosPerSecond
    nanos := (total % nanosPerSecond).toNat }

/-- The instant `n` nanoseconds later. A leap second is left at its end or its beginning, and a
shift that does not leave it stays inside. -/
def add (i : Instant) (n : Int) : Instant :=
  if i.nanos < nanosPerSecond then i.shift n
  else
    let seconds := n.tdiv nanosPerSecond
    let nanos := n.tmod nanosPerSecond
    if 0 < seconds ∨ (0 < nanos ∧ (2 * nanosPerSecond : Int) ≤ i.nanos + nanos) then
      shift { i with nanos := i.nanos - nanosPerSecond } n
    else if seconds < 0 then
      shift { i with seconds := i.seconds + 1, nanos := i.nanos - nanosPerSecond } n
    else { i with nanos := (i.nanos + nanos).toNat }

end Instant

/-- A clock gives one reading after the other. `taken` counts those it has given. -/
structure Clock where
  reading : Nat → Instant
  taken : Nat := 0

namespace Clock

def fixed (i : Instant) : Clock := { reading := fun _ => i }

def stepping (start : Instant) (step : Int) : Clock :=
  { reading := fun n => start.add (n * step) }

def now (c : Clock) : Instant := c.reading c.taken

def tick (c : Clock) : Clock := { c with taken := c.taken + 1 }

end Clock

end LineLogger.Time
