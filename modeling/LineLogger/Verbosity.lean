namespace LineLogger

/-- How much a logger lets through: a level, and a flag that silences it whatever the level. -/
structure Verbosity where
  level : Int32 := 0
  quiet : Bool := false
  deriving DecidableEq, Repr

namespace Verbosity

def defaultThreshold : Int32 := 0

def quietThreshold : Int32 := -1

def silent : Verbosity := ⟨defaultThreshold, true⟩

def ofLevel (level : Int32) : Verbosity := ⟨level, false⟩

def ofFlags (count : UInt8) (quiet : Bool) : Verbosity := ⟨Int32.ofNat count.toNat, quiet⟩

def threshold (v : Verbosity) : Int32 := if v.quiet then quietThreshold else v.level

def thresholdOf : Option Verbosity → Int32
  | none => defaultThreshold
  | some v => v.threshold

def toText (v : Verbosity) : String :=
  s!"Verbosity \x7b level: {v.level}, quiet: {v.quiet} \x7d"

end Verbosity

end LineLogger
