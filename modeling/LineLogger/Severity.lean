namespace LineLogger

/-- How grave a line is. The declaration order is the order of the ordinals. -/
inductive Severity
  | error
  | debug
  | trace
  | warn
  | info
  deriving DecidableEq, Repr

namespace Severity

def all : List Severity := [.error, .debug, .trace, .warn, .info]

def ordinal : Severity → Int32
  | .error => 0
  | .debug => 1
  | .trace => 2
  | .warn => 3
  | .info => 4

def ofOrdinal? (n : Int32) : Option Severity := all.find? (fun s => s.ordinal = n)

/-- The threshold from which a severity is emitted. Only `debug` and `trace` depend on how
verbose a logger is; the others pass at threshold 0. -/
def effectiveLevel : Severity → Int32
  | .debug => ordinal .debug
  | .trace => ordinal .trace
  | .error | .warn | .info => 0

def abbreviation : Severity → String
  | .error => "ERR"
  | .debug => "DEB"
  | .trace => "TRC"
  | .warn => "WRN"
  | .info => "INF"

def name : Severity → String
  | .error => "Error"
  | .debug => "Debug"
  | .trace => "Trace"
  | .warn => "Warn"
  | .info => "Info"

def ofName? (n : String) : Option Severity := all.find? (fun s => s.name = n)

theorem mem_all (s : Severity) : s ∈ all := by cases s <;> decide

theorem ofOrdinal?_ordinal (s : Severity) : ofOrdinal? s.ordinal = some s := by
  cases s <;> decide

theorem ofName?_name (s : Severity) : ofName? s.name = some s := by
  cases s <;> decide

end Severity

end LineLogger
