import LineLogger.Config
import LineLogger.Metrics
import LineLogger.Sink

namespace LineLogger

def defaultLogger : LoggerId := 0

def systemClock : ClockId := 0

namespace Layout

/-- A line without its line feed: time stamp, tab, message. -/
def content (stamp message : String) : String := stamp ++ "\t" ++ message

def bytes (stamp message : String) : Bytes := Text.Utf8.ofString (content stamp message ++ "\n")

end Layout

/-- What a logger holds. Clock, sink and hook may be shared with other loggers. -/
structure Logger where
  threshold : Int32 := Verbosity.defaultThreshold
  timeFormat : Time.Format := {}
  clock : ClockId := systemClock
  sink : Sink := .outlet .standardError
  hook : Option HookId := none
  metrics : Metrics := {}
  deriving DecidableEq, Repr

namespace Logger

def withVerbosity (v : Option Verbosity) : Logger := { threshold := Verbosity.thresholdOf v }

def ofConfig (c : Config) : Logger :=
  { threshold := c.verbosity.threshold, timeFormat := c.timeFormat }

def admits (l : Logger) (level : Int32) : Bool := level ≤ l.threshold

def enabled (l : Logger) (s : Severity) : Bool := l.admits s.effectiveLevel

/-- Compares the ordinal itself, unlike `enabled`. -/
def isInVerbosity (l : Logger) (s : Severity) : Bool := l.admits s.ordinal

def count (l : Logger) (c : Counter) : Logger := { l with metrics := l.metrics.record c }

def line (l : Logger) (now : Time.Instant) (message : String) : Bytes :=
  Layout.bytes (l.timeFormat.render now) message

end Logger

inductive Setting
  | verbosity (v : Option Verbosity)
  | timeFormat (f : Time.Format)
  | clock (c : ClockId)
  | sink (s : Sink)
  | hook (h : Option HookId)

def Logger.set (l : Logger) : Setting → Logger
  | .verbosity v => { l with threshold := Verbosity.thresholdOf v }
  | .timeFormat f => { l with timeFormat := f }
  | .clock c => { l with clock := c }
  | .sink s => { l with sink := s }
  | .hook h => { l with hook := h }

end LineLogger
