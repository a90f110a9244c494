import LineLogger.Severity
import LineLogger.Sink.FileTree

namespace LineLogger

abbrev LoggerId := Nat
abbrev BufferId := Nat
abbrev DeviceId := Nat
abbrev ClockId := Nat
abbrev HookId := Nat

/-- Where bytes end up. Two sinks on one buffer share its content. -/
inductive Outlet
  | standardError
  | buffer (id : BufferId)
  | device (id : DeviceId)
  | file (location : Location)
  deriving DecidableEq, Repr

/-- Whatever is written to a writer is logged by its logger, one line for each write. -/
structure Writer where
  logger : LoggerId
  severity : Severity
  deriving DecidableEq, Repr

inductive Sink
  | outlet (o : Outlet)
  | writer (w : Writer)
  deriving DecidableEq, Repr

end LineLogger
