import LineLogger.Proofs.Transport

namespace LineLogger

namespace State

/-- Two states that differ at most in the names of their loggers, in what is counted and in what is
on record. -/
structure Resembles (f : LoggerId → LoggerId) (w u : State) : Prop where
  size : u.loggers.size = w.loggers.size
  loggers : ∀ l, ∃ m, u.logger (f l) = { (w.logger l).rename f with metrics := m }
  clocks : u.clocks = w.clocks
  outlets : u.outlets = w.outlets
  hooks : ∀ h, u.hooks.get h = (w.hooks.get h).rename f
  inHook : u.inHook = w.inHook

/-- A relation of states that resemble each other, kept by every change that a command is made
of. -/
structure Parallel (f : LoggerId → LoggerId) (R : State → State → Prop) : Prop where
  injective : Function.Injective f
  resembles : ∀ {w u}, R w u → Resembles f w u
  note : ∀ {w u} (e), R w u → R (w.note e) (u.note (e.rename f))
  count : ∀ {w u} (l c), R w u → R (w.count l c) (u.count (f l) c)
  format : ∀ {w u}, R w u →
    R { w with formatted := w.formatted + 1 } { u with formatted := u.formatted + 1 }
  set : ∀ {w u} (l s), R w u →
    R (w.modifyLogger l (·.set s)) (u.modifyLogger (f l) (·.set (s.rename f)))
  reset : ∀ {w u} (l), R w u →
    R (w.modifyLogger l (fun g => { g with metrics := {} }))
      (u.modifyLogger (f l) (fun g => { g with metrics := {} }))
  clocks : ∀ {w u} (c), R w u → R { w with clocks := c } { u with clocks := c }
  outlets : ∀ {w u} (o), R w u → R (w.withOutlets o) (u.withOutlets o)
  inHook : ∀ {w u} (b), R w u → R { w with inHook := b } { u with inHook := b }

variable {f : LoggerId → LoggerId} {R : State → State → Prop} {w u : State} {g k : OnFailure}

theorem Resembles.transported (h : Resembles f w u) : Transported f id w u where
  size := h.size
  loggers l := by
    rw [Logger.redirect_id]
    exact h.loggers l
  clocks := h.clocks
  hooks k := by
    rw [Hook.redirect_id]
    exact h.hooks k
  inHook := h.inHook
  carries _ _ c _ := c.carries_id

namespace Parallel

theorem act {α : Type} {p : State → State × α} (hR : Parallel f R) (hp : OnOutlets p)
    (h : R w u) : R (p w).1 (p u).1 ∧ (p w).2 = (p u).2 := by
  obtain ⟨d, hd⟩ := hp
  rw [hd, hd, (hR.resembles h).outlets]
  exact ⟨hR.outlets _ h, rfl⟩

theorem transport (hR : Parallel f R) : Transport f id R where
  injective := hR.injective
  transported h := (hR.resembles h).transported
  note e h := hR.note e h
  count l c h := hR.count l c h
  format h := hR.format h
  set l s h := by
    rw [Setting.redirect_id]
    exact hR.set l s h
  reset l h := hR.reset l h
  clocks c h := hR.clocks c h
  inHook b h := hR.inHook b h
  deliver o b h := hR.act (onOutlets_deliver o b) h
  offer o b h := hR.act (onOutlets_offer o b) h
  flushOutlet o h := hR.act (onOutlets_flushOutlet o) h
  clear i _ h :=
    (hR.act (p := fun w => ({ w with buffers := w.buffers.put i [] }, ()))
      ⟨fun d => ({ d with buffers := d.buffers.put i [] }, ()), fun _ => rfl⟩ h).1

theorem admits (hR : Parallel f R) (h : R w u) (q : Call) :
    u.admits (q.rename f) = w.admits q := hR.transport.admits h q

theorem submitCall (hR : Parallel f R) (hg : Transport.Handles f R g k) (h : R w u) (free : Nat)
    (held : List LoggerId) (q : Call) :
    Option.Rel R (w.submitCall g free held q)
      (u.submitCall k free (held.map f) (q.rename f)) := hR.transport.submitCall hg h free held q

theorem onFailure (hR : Parallel f R) (depth : Nat) :
    Transport.Handles f R (State.onFailure depth) (State.onFailure depth) :=
  hR.transport.onFailure depth

theorem perform (hR : Parallel f R) (h : R w u) (c : Command) :
    Agree R (w.perform c) (u.perform (c.rename f)) := by
  have hp := hR.transport.perform h c.carries_id
  rw [Command.redirect_id] at hp
  exact hp

end Parallel

end State

end LineLogger
