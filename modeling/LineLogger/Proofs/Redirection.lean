import LineLogger.Logger.Builder
import LineLogger.Proofs.Renaming

namespace LineLogger

section

variable (p : Outlet → Outlet)

def Sink.redirect : Sink → Sink
  | .outlet o => .outlet (p o)
  | .writer v => .writer v

def Setting.redirect : Setting → Setting
  | .sink s => .sink (s.redirect p)
  | x => x

def Logger.redirect (g : Logger) : Logger := { g with sink := g.sink.redirect p }

def Builder.redirect (b : Builder) : Builder := { b with sink := b.sink.map (·.redirect p) }

def Command.redirect : Command → Command
  | .set l s => .set l (s.redirect p)
  | .writeOnce s b => .writeOnce (s.redirect p) b
  | .write s b => .write (s.redirect p) b
  | .flushSink s => .flushSink (s.redirect p)
  | c => c

def Hook.redirect (k : Hook) : Hook := { k with body := fun e => (k.body e).map (·.redirect p) }

/-- Whether a command has the same meaning with the other outlets. Only a buffer can be cleared. -/
def Command.Carries : Command → Prop
  | .clear i => p (.buffer i) = .buffer i
  | _ => True

end

variable {p : Outlet → Outlet}

theorem Sink.redirect_id (s : Sink) : s.redirect id = s := by cases s <;> rfl

theorem Setting.redirect_id (s : Setting) : s.redirect id = s := by
  cases s with
  | sink s => exact congrArg Setting.sink s.redirect_id
  | _ => rfl

theorem Logger.redirect_id (g : Logger) : g.redirect id = g := by
  rw [redirect, Sink.redirect_id]

theorem Command.redirect_id (c : Command) : c.redirect id = c := by
  cases c with
  | set l s => exact congrArg (Command.set l) s.redirect_id
  | writeOnce s b => exact congrArg (Command.writeOnce · b) s.redirect_id
  | write s b => exact congrArg (Command.write · b) s.redirect_id
  | flushSink s => exact congrArg Command.flushSink s.redirect_id
  | _ => rfl

theorem Hook.redirect_id (k : Hook) : k.redirect id = k := by
  have hb : (fun e => (k.body e).map (·.redirect id)) = k.body := by
    funext e
    simp [Command.redirect_id]
  rw [redirect, hb]

theorem Command.carries_id (c : Command) : c.Carries id := by
  cases c with
  | clear i => exact rfl
  | _ => trivial

theorem Logger.redirect_set (g : Logger) (s : Setting) :
    (g.set s).redirect p = (g.redirect p).set (s.redirect p) := by cases s <;> rfl

theorem Builder.build_redirect (hp : p .standardError = .standardError) (b : Builder) :
    (b.redirect p).build = b.build.redirect p := by
  rcases b with ⟨t, _ | s, f, c, h⟩
  · have hs : Sink.redirect p (.outlet .standardError) = .outlet .standardError :=
      congrArg Sink.outlet hp
    simp [redirect, build, Logger.redirect, hs]
  · rfl

theorem Command.call?_redirect (c : Command) : (c.redirect p).call? = c.call? := by
  cases c with
  | writeOnce s b => cases s <;> rfl
  | write s b => cases s <;> rfl
  | _ => rfl

theorem Command.reply_redirect (c : Command) : (c.redirect p).reply = c.reply := by cases c <;> rfl

/-- The program with the other outlets, which hold what they held. -/
def State.redirect (p : Outlet → Outlet) (w : State) : State :=
  { w with
    loggers := w.loggers.rename id (·.redirect p)
    hooks := w.hooks.rename id (·.redirect p) }

end LineLogger
