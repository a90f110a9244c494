import LineLogger.Logger

namespace LineLogger

/-- What a logger is to be made of. A sink or a clock that was not given stays the default. -/
structure Builder where
  threshold : Int32 := Verbosity.defaultThreshold
  sink : Option Sink := none
  timeFormat : Time.Format := {}
  clock : Option ClockId := none
  hook : Option HookId := none

namespace Builder

inductive Call
  | verbosity (v : Verbosity)
  | config (c : Config)
  | timeFormat (f : Time.Format)
  | clock (c : ClockId)
  | sink (s : Sink)
  | hook (h : HookId)

def apply (b : Builder) : Call → Builder
  | .verbosity v => { b with threshold := v.threshold }
  | .config c => { b with threshold := c.verbosity.threshold, timeFormat := c.timeFormat }
  | .timeFormat f => { b with timeFormat := f }
  | .clock c => { b with clock := some c }
  | .sink s => { b with sink := some s }
  | .hook h => { b with hook := some h }

def ofCalls (calls : List Call) : Builder := calls.foldl apply {}

def build (b : Builder) : Logger :=
  let l : Logger := { threshold := b.threshold, timeFormat := b.timeFormat, hook := b.hook }
  { l with sink := b.sink.getD l.sink, clock := b.clock.getD l.clock }

def Call.settings : Call → List Setting
  | .verbosity v => [.verbosity (some v)]
  | .config c => [.verbosity (some c.verbosity), .timeFormat c.timeFormat]
  | .timeFormat f => [.timeFormat f]
  | .clock c => [.clock c]
  | .sink s => [.sink s]
  | .hook h => [.hook (some h)]

end Builder

end LineLogger
