import LineLogger.Proofs.Frames
import Mathlib.Logic.Function.Basic

namespace LineLogger

section

variable (f : LoggerId → LoggerId)

def Writer.rename (v : Writer) : Writer := { v with logger := f v.logger }

def Sink.rename : Sink → Sink
  | .outlet o => .outlet o
  | .writer v => .writer (v.rename f)

def Setting.rename : Setting → Setting
  | .verbosity v => .verbosity v
  | .timeFormat t => .timeFormat t
  | .clock c => .clock c
  | .sink s => .sink (s.rename f)
  | .hook h => .hook h

def Logger.rename (g : Logger) : Logger := { g with sink := g.sink.rename f }

def Call.rename (q : Call) : Call := { q with logger := f q.logger }

def Command.rename : Command → Command
  | .log l v tagged m => .log (f l) v tagged m
  | .logRaw l n tagged m => .logRaw (f l) n tagged m
  | .flush l => .flush (f l)
  | .set l s => .set (f l) (s.rename f)
  | .resetMetrics l => .resetMetrics (f l)
  | .writeOnce s b => .writeOnce (s.rename f) b
  | .write s b => .write (s.rename f) b
  | .flushSink s => .flushSink (s.rename f)
  | .clear i => .clear i

def Hook.rename (k : Hook) : Hook := { k with body := fun e => (k.body e).map (·.rename f) }

def Event.rename : Event → Event
  | .reached l => .reached (f l)
  | .lost l e => .lost (f l) e
  | .flushed l e => .flushed (f l) e
  | .hookBegan l h e => .hookBegan (f l) h e
  | .hookEnded l => .hookEnded (f l)

end

variable {f : LoggerId → LoggerId}

theorem Sink.rename_id (s : Sink) : s.rename id = s := by cases s <;> rfl

theorem Setting.rename_id (s : Setting) : s.rename id = s := by
  cases s with
  | sink s => exact congrArg Setting.sink s.rename_id
  | _ => rfl

theorem Logger.rename_id (g : Logger) : g.rename id = g := by
  rw [rename, Sink.rename_id]

theorem Command.rename_id (c : Command) : c.rename id = c := by
  cases c with
  | set l s => exact congrArg (Command.set l) s.rename_id
  | writeOnce s b => exact congrArg (Command.writeOnce · b) s.rename_id
  | write s b => exact congrArg (Command.write · b) s.rename_id
  | flushSink s => exact congrArg Command.flushSink s.rename_id
  | _ => rfl

theorem Hook.rename_id (k : Hook) : k.rename id = k := by
  have hb : (fun e => (k.body e).map (·.rename id)) = k.body := by
    funext e
    simp [Command.rename_id]
  rw [rename, hb]

theorem Event.rename_id (e : Event) : e.rename id = e := by cases e <;> rfl

theorem Logger.rename_set (g : Logger) (s : Setting) :
    (g.set s).rename f = (g.rename f).set (s.rename f) := by cases s <;> rfl

theorem Call.raw?_rename (l : LoggerId) (n : Int32) (tagged : Bool) (m : Message) :
    raw? (f l) n tagged m = (raw? l n tagged m).map (·.rename f) := by
  rw [raw?, raw?]
  cases Severity.ofOrdinal? n with
  | some v => rfl
  | none =>
    dsimp only
    split <;> rfl

theorem Command.call?_rename (c : Command) : (c.rename f).call? = c.call?.map (·.rename f) := by
  cases c with
  | log l v tagged m => rfl
  | logRaw l n tagged m => exact Call.raw?_rename l n tagged m
  | writeOnce s b => cases s <;> rfl
  | write s b =>
    cases s with
    | outlet o => rfl
    | writer v =>
      simp only [rename, Sink.rename, call?]
      split <;> rfl
  | _ => rfl

theorem Command.reply_rename (c : Command) : (c.rename f).reply = c.reply := by cases c <;> rfl

namespace Store

variable {α β : Type}

/-- The same values after `g`, under other numbers. -/
def rename (f : Nat → Nat) (g : α → β) (s : Store α) : Store β where
  entries := s.entries.map fun e => (f e.1, g e.2)
  size := s.size
  fallback := g s.fallback

theorem lookup_rename {f : Nat → Nat} (hf : Function.Injective f) (g : α → β) (i : Nat)
    (es : List (Nat × α)) :
    (es.map fun e => (f e.1, g e.2)).lookup (f i) = (es.lookup i).map g := by
  induction es with
  | nil => rfl
  | cons e es ih =>
    obtain ⟨k, a⟩ := e
    by_cases hk : i = k
    · simp [hk]
    · have hn : f i ≠ f k := fun h => hk (hf h)
      simp [List.lookup_cons, beq_eq_false_iff_ne.mpr hn, beq_eq_false_iff_ne.mpr hk, ih]

theorem get_rename {f : Nat → Nat} (hf : Function.Injective f) (g : α → β) (s : Store α) (i : Nat) :
    (s.rename f g).get (f i) = g (s.get i) := by
  rw [get, get, rename, lookup_rename hf]
  exact (Option.getD_map g s.fallback _)

end Store

def State.rename (f : LoggerId → LoggerId) (w : State) : State :=
  { w with
    loggers := w.loggers.rename f (·.rename f)
    hooks := w.hooks.rename id (·.rename f)
    journal := w.journal.map (·.rename f) }

end LineLogger
