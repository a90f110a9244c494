import LineLogger.Command
import LineLogger.Error
import LineLogger.Sink.Device
import LineLogger.Store

namespace LineLogger

/-- What is called when a line is lost, with the failure that lost it. -/
structure Hook where
  name : String
  body : IoError → List Command

/-- What happened to the loggers, as far as it cannot be read off what they hold. -/
inductive Event
  | reached (logger : LoggerId)
  | lost (logger : LoggerId) (error : IoError)
  | flushed (logger : LoggerId) (failure : Option IoError)
  | hookBegan (logger : LoggerId) (hook : HookId) (error : IoError)
  | hookEnded (logger : LoggerId)

/-- The loggers of a program with all that they share, as one thread sees them. -/
structure State where
  loggers : Store Logger
  buffers : Store Bytes
  devices : Store Device
  clocks : Store Time.Clock
  hooks : Store Hook
  files : FileTree := {}
  standardError : Bytes := []
  inHook : Bool := false
  formatted : Nat := 0
  journal : List Event := []

namespace State

/-- Only the default logger exists, and the system's clock, which reads as the given one. -/
def initial (system : Time.Clock) : State :=
  let loggers : Store Logger := { fallback := {} }
  let clocks : Store Time.Clock := { fallback := system }
  { loggers := loggers.add {}
    buffers := { fallback := [] }
    devices := { fallback := {} }
    clocks := clocks.add system
    hooks := { fallback := ⟨"", fun _ => []⟩ } }

def logger (w : State) (l : LoggerId) : Logger := w.loggers.get l

def modifyLogger (w : State) (l : LoggerId) (f : Logger → Logger) : State :=
  { w with loggers := w.loggers.modify l f }

theorem logger_modifyLogger (w : State) (l k : LoggerId) (f : Logger → Logger) :
    (w.modifyLogger l f).logger k = if k = l then f (w.logger k) else w.logger k :=
  Store.get_modify w.loggers l k f

def count (w : State) (l : LoggerId) (c : Counter) : State := w.modifyLogger l (·.count c)

def note (w : State) (e : Event) : State := { w with journal := w.journal ++ [e] }

def textOf (w : State) (m : Message) : State × String :=
  match m with
  | .text s => (w, s)
  | .formatted s => ({ w with formatted := w.formatted + 1 }, s)

def readClock (w : State) (l : LoggerId) : State × Time.Instant :=
  let c := (w.logger l).clock
  ({ w with clocks := w.clocks.modify c (·.tick) }, (w.clocks.get c).now)

def deliver (w : State) (o : Outlet) (b : Bytes) : State × Option IoError :=
  match o with
  | .standardError => ({ w with standardError := w.standardError ++ b }, none)
  | .buffer i => ({ w with buffers := w.buffers.modify i (· ++ b) }, none)
  | .device i =>
    let (d, e) := (w.devices.get i).writeAll b
    ({ w with devices := w.devices.put i d }, e)
  | .file l => ({ w with files := w.files.append l b }, none)

def offer (w : State) (o : Outlet) (b : Bytes) : State × Except IoError Nat :=
  match o with
  | .device i =>
    ({ w with devices := w.devices.modify i (·.afterWrite b) }, (w.devices.get i).answerTo b)
  | _ => ((w.deliver o b).1, .ok b.length)

def flushOutlet (w : State) (o : Outlet) : State × Option IoError :=
  match o with
  | .device i =>
    ({ w with devices := w.devices.modify i (·.afterFlush) }, (w.devices.get i).flushFailure)
  | _ => (w, none)

def openFile (w : State) (path : String) : Except Error (State × Sink) :=
  match w.files.openAppend path with
  | .error e => .error (.fileSink path e)
  | .ok (files, l) => .ok ({ w with files }, .outlet (.file l))

end State

end LineLogger
