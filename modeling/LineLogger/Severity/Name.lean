import LineLogger.Error
import LineLogger.Severity
import LineLogger.Text.UpperCase

namespace LineLogger.Severity

def spellings : Severity → List String
  | .error => ["ERROR", "ERR"]
  | .debug => ["DEBUG", "DEB"]
  | .trace => ["TRACE", "TRC"]
  | .warn => ["WARN", "WARNING", "WRN"]
  | .info => ["INFO", "INF"]

/-- Reads a spelling whatever its case. Nothing is trimmed. -/
def parse (s : String) : Except Error Severity :=
  match all.find? (fun v => v.spellings.contains (String.ofList (Text.upper s.toList))) with
  | some v => .ok v
  | none => .error (.unknownSeverityName s)

def ofOrdinal (n : Int32) : Except Error Severity :=
  match ofOrdinal? n with
  | some v => .ok v
  | none => .error (.invalidSeverity n)

end LineLogger.Severity
