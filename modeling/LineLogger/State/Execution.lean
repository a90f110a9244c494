import LineLogger.Error
import LineLogger.State.Emission

namespace LineLogger

inductive Reply
  | done
  | count (n : Nat)
  | failed (error : Error)
  | ioFailed (error : IoError)

namespace State

/-- A bare ordinal, as the level it needs and the label of its line. Above 4 there is no label, and
the ordinal itself is the level. -/
def resolve (ordinal : Int32) (tagged : Bool) : Except Error (Int32 × Option Severity) :=
  if ordinal < 0 then .error (.invalidSeverity ordinal)
  else
    match Severity.ofOrdinal? ordinal with
    | some v => .ok (v.effectiveLevel, if tagged then some v else none)
    | none => if tagged then .error (.untaggableSeverity ordinal) else .ok (ordinal, none)

def submitTo (onFailure : OnFailure) (held : List LoggerId) (v : Writer) (m : Message)
    (w : State) : Option State :=
  w.submit onFailure w.loggers.size held v.logger v.severity.effectiveLevel none m

/-- One write call on a sink. A writer logs the bytes as text and always takes all of them. -/
def writeOnce (onFailure : OnFailure) (held : List LoggerId) (s : Sink) (b : Bytes) (w : State) :
    Option (State × Reply) :=
  match s with
  | .writer v =>
    (w.submitTo onFailure held v (.text (Text.Utf8.toString b))).map (·, .count b.length)
  | .outlet o =>
    match w.offer o b with
    | (w, .ok n) => some (w, .count n)
    | (w, .error e) => some (w, .ioFailed e)

def write (onFailure : OnFailure) (held : List LoggerId) (s : Sink) (b : Bytes) (w : State) :
    Option (State × Reply) :=
  match s with
  | .writer v =>
    if b.isEmpty then some (w, .done)
    else (w.submitTo onFailure held v (.text (Text.Utf8.toString b))).map (·, .done)
  | .outlet o =>
    match w.deliver o b with
    | (w, none) => some (w, .done)
    | (w, some e) => some (w, .ioFailed e)

def flushSink (held : List LoggerId) (s : Sink) (w : State) : Option (State × Reply) :=
  match s with
  | .writer v => (w.flush w.loggers.size held v.logger).map (fun p => (p.1, .done))
  | .outlet o =>
    match w.flushOutlet o with
    | (w, none) => some (w, .done)
    | (w, some e) => some (w, .ioFailed e)

/-- Changes the setting of a logger. A sink can only be replaced while it is not locked. -/
def change (held : List LoggerId) (l : LoggerId) (s : Setting) (w : State) :
    Option (State × Reply) :=
  match s with
  | .sink _ => if l ∈ held then none else some (w.modifyLogger l (·.set s), .done)
  | _ => some (w.modifyLogger l (·.set s), .done)

/-- Carries out one command. There is no result if the thread waits forever. -/
def exec (onFailure : OnFailure) (held : List LoggerId) (c : Command) (w : State) :
    Option (State × Reply) :=
  match c with
  | .log l v tagged m =>
    (w.submit onFailure w.loggers.size held l v.effectiveLevel
      (if tagged then some v else none) m).map (·, .done)
  | .logRaw l n tagged m =>
    match resolve n tagged with
    | .error e => some (w, .failed e)
    | .ok (level, label) =>
      (w.submit onFailure w.loggers.size held l level label m).map (·, .done)
  | .flush l =>
    (w.flush w.loggers.size held l).map (fun p =>
      (p.1, match p.2 with
        | none => .done
        | some e => .failed (.io e)))
  | .set l s => w.change held l s
  | .resetMetrics l => some (w.modifyLogger l (fun g => { g with metrics := {} }), .done)
  | .writeOnce s b => w.writeOnce onFailure held s b
  | .write s b => w.write onFailure held s b
  | .flushSink s => w.flushSink held s
  | .clear i => some ({ w with buffers := w.buffers.put i [] }, .done)

def execAll (onFailure : OnFailure) (held : List LoggerId) : List Command → State → Option State
  | [], w => some w
  | c :: cs, w =>
    match w.exec onFailure held c with
    | none => none
    | some (w, _) => execAll onFailure held cs w

/-- Runs the hook of a logger that lost a line, unless the thread is inside a hook already. The
mark is the thread's, so it holds for every logger. `depth` bounds the nesting of hooks. -/
def onFailure : Nat → OnFailure
  | depth, held, l, e, w =>
    if w.inHook then some w
    else
      match (w.logger l).hook with
      | none => some w
      | some h =>
        match depth with
        | 0 => none
        | depth + 1 =>
          let w := { w with inHook := true }.note (.hookBegan l h e)
          match execAll (onFailure depth) held ((w.hooks.get h).body e) w with
          | none => none
          | some w => some { w.note (.hookEnded l) with inHook := false }

def perform (c : Command) (w : State) : Option (State × Reply) := w.exec (onFailure 1) [] c

def performAll : List Command → State → Option (State × List Reply)
  | [], w => some (w, [])
  | c :: cs, w =>
    match w.perform c with
    | none => none
    | some (w, r) => (performAll cs w).map (fun p => (p.1, r :: p.2))

end State

end LineLogger
