import LineLogger.State.Emission

namespace LineLogger.Concurrent

structure Request where
  level : Int32
  label : Option Severity
  message : String

inductive Phase
  | idle
  | waiting (r : Request)
  | locked (r : Request)
  | writing (rest : Bytes)
  | unlocked

structure Thread where
  todo : List Request
  phase : Phase := .idle

/-- Threads that share one logger. The sink never fails, but may take any part of what it is
offered. -/
structure Machine where
  logger : Logger
  clock : Time.Clock
  sink : Bytes := []
  owner : Option Nat := none
  threads : List Thread

namespace Machine

def setThread (m : Machine) (i : Nat) (t : Thread) : Machine :=
  { m with threads := m.threads.set i t }

def lineNow (m : Machine) (r : Request) : Bytes :=
  m.logger.line m.clock.now (State.tag r.label r.message)

/-- The next step of thread `i`, which takes at most `part` bytes if it is a write. There is none
if the thread is done or has to wait. -/
def step? (m : Machine) (i part : Nat) : Option Machine :=
  match m.threads[i]? with
  | none => none
  | some t =>
    match t.phase, t.todo with
    | .idle, [] => none
    | .idle, r :: rs =>
      if m.logger.admits r.level then some (m.setThread i ⟨rs, .waiting r⟩)
      else some ({ m with logger := m.logger.count .filtered }.setThread i ⟨rs, .idle⟩)
    | .waiting r, rs =>
      if m.owner.isNone then some ({ m with owner := some i }.setThread i ⟨rs, .locked r⟩)
      else none
    | .locked r, rs =>
      some ({ m with clock := m.clock.tick }.setThread i ⟨rs, .writing (m.lineNow r)⟩)
    | .writing [], rs => some ({ m with owner := none }.setThread i ⟨rs, .unlocked⟩)
    | .writing (b :: bs), rs =>
      if part = 0 then none
      else
        some ({ m with sink := m.sink ++ (b :: bs).take part }.setThread i
          ⟨rs, .writing ((b :: bs).drop part)⟩)
    | .unlocked, rs =>
      some ({ m with logger := m.logger.count .written }.setThread i ⟨rs, .idle⟩)

def run? (m : Machine) : List (Nat × Nat) → Option Machine
  | [] => some m
  | (i, part) :: rest =>
    match m.step? i part with
    | none => none
    | some n => n.run? rest

def isDone (m : Machine) : Bool :=
  m.threads.all (fun t =>
    match t.phase, t.todo with
    | .idle, [] => true
    | _, _ => false)

end Machine

end LineLogger.Concurrent
