import LineLogger.State

namespace LineLogger

namespace Global

def log (s : Severity) (tagged : Bool) (message : String) : Command :=
  .log defaultLogger s tagged (.text message)

def logFormatted (s : Severity) (tagged : Bool) (message : String) : Command :=
  .log defaultLogger s tagged (.formatted message)

def logRaw (ordinal : Int32) (tagged : Bool) (message : String) : Command :=
  .logRaw defaultLogger ordinal tagged (.text message)

def logRawFormatted (ordinal : Int32) (tagged : Bool) (message : String) : Command :=
  .logRaw defaultLogger ordinal tagged (.formatted message)

def set (s : Setting) : Command := .set defaultLogger s

def flush : Command := .flush defaultLogger

def writer (s : Severity) : Writer := ⟨defaultLogger, s⟩

def threshold (w : State) : Int32 := (w.logger defaultLogger).threshold

def isInVerbosity (w : State) (s : Severity) : Bool := (w.logger defaultLogger).isInVerbosity s

end Global

end LineLogger
