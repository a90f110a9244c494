import LineLogger.IoError
import LineLogger.Json.Fault

namespace LineLogger

inductive Error
  | invalidSeverity (value : Int32)
  | untaggableSeverity (value : Int32)
  | unknownSeverityName (name : String)
  | io (error : IoError)
  | json (error : Json.Error)
  | fileSink (path : String) (error : IoError)
  | invalidConfiguration (component text : String)

namespace Error

def message : Error → String
  | .invalidSeverity n => s!"Invalid severity {n}: no severity has this ordinal"
  | .untaggableSeverity n =>
    s!"Severity {n} cannot be tagged: only ordinals 0 to 4 have an abbreviation"
  | .unknownSeverityName n => "Unknown severity name: '" ++ n ++ "'"
  | .io e => "IO error: " ++ e.text
  | .json e => "JSON error: " ++ e.message
  | .fileSink path e => "File sink error for '" ++ path ++ "': " ++ e.text
  | .invalidConfiguration component text =>
    "Invalid configuration for " ++ component ++ ": " ++ text

def source : Error → Option IoError
  | .io e => some e
  | .fileSink _ e => some e
  | _ => none

end Error

end LineLogger
