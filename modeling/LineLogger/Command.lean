import LineLogger.Logger

namespace LineLogger

inductive Message
  | text (s : String)
  | formatted (s : String)

/-- Everything a program can ask of the library. `write` delivers all bytes, `writeOnce` makes one
call. -/
inductive Command
  | log (logger : LoggerId) (severity : Severity) (tagged : Bool) (message : Message)
  | logRaw (logger : LoggerId) (ordinal : Int32) (tagged : Bool) (message : Message)
  | flush (logger : LoggerId)
  | set (logger : LoggerId) (setting : Setting)
  | resetMetrics (logger : LoggerId)
  | writeOnce (sink : Sink) (bytes : Bytes)
  | write (sink : Sink) (bytes : Bytes)
  | flushSink (sink : Sink)
  | clear (buffer : BufferId)

namespace Command

def error (l : LoggerId) (s : String) : Command := .log l .error true (.formatted s)

def warn (l : LoggerId) (s : String) : Command := .log l .warn true (.formatted s)

def info (l : LoggerId) (s : String) : Command := .log l .info true (.formatted s)

def debug (l : LoggerId) (s : String) : Command := .log l .debug true (.formatted s)

def trace (l : LoggerId) (s : String) : Command := .log l .trace true (.formatted s)

end Command

end LineLogger
