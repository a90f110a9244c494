import LineLogger.Proofs.Parallel

namespace LineLogger

namespace State

/-- Two states that differ at most in what is counted and what is on record. -/
structure Shares (w u : State) : Prop where
  size : u.loggers.size = w.loggers.size
  loggers : ∀ l, ∃ m, u.logger l = { w.logger l with metrics := m }
  clocks : u.clocks = w.clocks
  outlets : u.outlets = w.outlets
  hooks : u.hooks = w.hooks
  inHook : u.inHook = w.inHook

namespace Shares

variable {w u v : State}

theorem symm (h : Shares w u) : Shares u w where
  size := h.size.symm
  loggers l := by
    obtain ⟨m, hm⟩ := h.loggers l
    exact ⟨(w.logger l).metrics, by rw [hm]⟩
  clocks := h.clocks.symm
  outlets := h.outlets.symm
  hooks := h.hooks.symm
  inHook := h.inHook.symm

theorem trans (h : Shares w u) (h' : Shares u v) : Shares w v where
  size := h'.size.trans h.size
  loggers l := by
    obtain ⟨m, hm⟩ := h.loggers l
    obtain ⟨n, hn⟩ := h'.loggers l
    exact ⟨n, by rw [hn, hm]⟩
  clocks := h'.clocks.trans h.clocks
  outlets := h'.outlets.trans h.outlets
  hooks := h'.hooks.trans h.hooks
  inHook := h'.inHook.trans h.inHook

theorem modifyLogger {g : Logger → Logger} (h : Shares w u) (l : LoggerId)
    (hg : ∀ x m, ∃ n, g { x with metrics := m } = { g x with metrics := n }) :
    Shares (w.modifyLogger l g) (u.modifyLogger l g) where
  size := h.size
  loggers k := by
    obtain ⟨m, hm⟩ := h.loggers k
    rw [logger_modifyLogger, logger_modifyLogger, hm]
    split
    · exact hg _ _
    · exact ⟨m, rfl⟩
  clocks := h.clocks
  outlets := h.outlets
  hooks := h.hooks
  inHook := h.inHook

theorem resembles (h : Shares w u) : Resembles id w u where
  size := h.size
  loggers l := by
    obtain ⟨m, hm⟩ := h.loggers l
    refine ⟨m, ?_⟩
    rw [Logger.rename_id]
    exact hm
  clocks := h.clocks
  outlets := h.outlets
  hooks k := by rw [h.hooks, Hook.rename_id]
  inHook := h.inHook

end Shares

/-- A relation of states that share all that decides over commands, kept by every change that a
command is made of. -/
structure Simulation (R : State → State → Prop) : Prop where
  shares : ∀ {w u}, R w u → Shares w u
  note : ∀ {w u} (e), R w u → R (w.note e) (u.note e)
  count : ∀ {w u} (l c), R w u → R (w.count l c) (u.count l c)
  format : ∀ {w u}, R w u →
    R { w with formatted := w.formatted + 1 } { u with formatted := u.formatted + 1 }
  set : ∀ {w u} (l s), R w u → R (w.modifyLogger l (·.set s)) (u.modifyLogger l (·.set s))
  reset : ∀ {w u} (l), R w u →
    R (w.modifyLogger l (fun g => { g with metrics := {} }))
      (u.modifyLogger l (fun g => { g with metrics := {} }))
  clocks : ∀ {w u} (c), R w u → R { w with clocks := c } { u with clocks := c }
  outlets : ∀ {w u} (o), R w u → R (w.withOutlets o) (u.withOutlets o)
  inHook : ∀ {w u} (b), R w u → R { w with inHook := b } { u with inHook := b }

namespace Simulation

variable {R : State → State → Prop} {w u : State} {f g : OnFailure}

theorem parallel (hR : Simulation R) : Parallel id R where
  injective := Function.injective_id
  resembles h := (hR.shares h).resembles
  note e h := by
    rw [Event.rename_id]
    exact hR.note e h
  count l c h := hR.count l c h
  format h := hR.format h
  set l s h := by
    rw [Setting.rename_id]
    exact hR.set l s h
  reset l h := hR.reset l h
  clocks c h := hR.clocks c h
  outlets o h := hR.outlets o h
  inHook b h := hR.inHook b h

theorem admits (hR : Simulation R) (h : R w u) (q : Call) : u.admits q = w.admits q :=
  hR.parallel.admits h q

def Handles (R : State → State → Prop) (f g : OnFailure) : Prop :=
  ∀ held l e w u, R w u → Option.Rel R (f held l e w) (g held l e u)

theorem submitCall (hR : Simulation R) (hf : Handles R f g) (h : R w u) (free : Nat)
    (held : List LoggerId) (q : Call) :
    Option.Rel R (w.submitCall f free held q) (u.submitCall g free held q) := by
  have hp : Transport.Handles id R f g := fun held l e w u h => by
    rw [List.map_id]
    exact hf held l e w u h
  have hs := hR.parallel.submitCall hp h free held q
  rw [List.map_id] at hs
  exact hs

theorem onFailure (hR : Simulation R) (depth : Nat) :
    Handles R (State.onFailure depth) (State.onFailure depth) := by
  intro held l e w u h
  have hf := hR.parallel.onFailure depth held l e w u h
  rw [List.map_id] at hf
  exact hf

theorem perform (hR : Simulation R) (h : R w u) (c : Command) :
    Agree R (w.perform c) (u.perform c) := by
  have hp := hR.parallel.perform h c
  rw [Command.rename_id] at hp
  exact hp

end Simulation

end State

end LineLogger
