import LineLogger.Proofs.Parallel

namespace LineLogger

namespace State

/-- Two states that differ in nothing but the names of their loggers. -/
structure Mirrors (f : LoggerId → LoggerId) (w u : State) : Prop where
  size : u.loggers.size = w.loggers.size
  loggers : ∀ l, u.logger (f l) = (w.logger l).rename f
  clocks : u.clocks = w.clocks
  outlets : u.outlets = w.outlets
  hooks : ∀ h, u.hooks.get h = (w.hooks.get h).rename f
  inHook : u.inHook = w.inHook
  formatted : u.formatted = w.formatted
  journal : u.journal = w.journal.map (·.rename f)

def invocations (w : State) : List (HookId × IoError) :=
  w.journal.filterMap fun
    | .hookBegan _ h e => some (h, e)
    | _ => none

variable {f : LoggerId → LoggerId} {w u : State}

namespace Mirrors

theorem resembles (h : Mirrors f w u) : Resembles f w u where
  size := h.size
  loggers l := ⟨(w.logger l).metrics, h.loggers l⟩
  clocks := h.clocks
  outlets := h.outlets
  hooks := h.hooks
  inHook := h.inHook

theorem metrics (h : Mirrors f w u) (l : LoggerId) :
    (u.logger (f l)).metrics = (w.logger l).metrics := by
  rw [h.loggers]
  rfl

theorem invocations (h : Mirrors f w u) : u.invocations = w.invocations := by
  rw [State.invocations, State.invocations, h.journal, List.filterMap_map]
  apply congrArg (List.filterMap · w.journal)
  funext e
  cases e <;> rfl

theorem note (h : Mirrors f w u) (e : Event) : Mirrors f (w.note e) (u.note (e.rename f)) :=
  { h with
    journal := by
      rw [journal_note, journal_note, h.journal, List.map_append]
      rfl }

theorem modifyLogger (hf : Function.Injective f) (h : Mirrors f w u) (l : LoggerId)
    {a b : Logger → Logger} (hab : ∀ g, b (g.rename f) = (a g).rename f) :
    Mirrors f (w.modifyLogger l a) (u.modifyLogger (f l) b) :=
  { h with
    loggers := fun k => by
      rw [logger_modifyLogger, logger_modifyLogger, h.loggers]
      by_cases hk : k = l
      · rw [if_pos hk, if_pos (congrArg f hk), hab]
      · rw [if_neg hk, if_neg (fun he => hk (hf he))] }

end Mirrors

theorem parallel_mirrors (hf : Function.Injective f) : Parallel f (Mirrors f) where
  injective := hf
  resembles h := h.resembles
  note e h := h.note e
  count l _ h := h.modifyLogger hf l (fun _ => rfl)
  format h := { h with formatted := congrArg (· + 1) h.formatted }
  set l s h := h.modifyLogger hf l (fun g => (g.rename_set s).symm)
  reset l h := h.modifyLogger hf l (fun _ => rfl)
  clocks _ h := { h with clocks := rfl }
  outlets _ h := { h with outlets := rfl }
  inHook _ h := { h with inHook := rfl }

theorem mirrors_rename (hf : Function.Injective f) (w : State) : Mirrors f w (w.rename f) where
  size := rfl
  loggers l := Store.get_rename hf _ w.loggers l
  clocks := rfl
  outlets := rfl
  hooks h := Store.get_rename Function.injective_id _ w.hooks h
  inHook := rfl
  formatted := rfl
  journal := rfl

/-- A program that does not mention the loggers that change their names is its own mirror image. -/
theorem mirrors_self (hl : ∀ l, w.logger (f l) = (w.logger l).rename f)
    (hh : ∀ h e, ∀ c ∈ (w.hooks.get h).body e, c.rename f = c)
    (hj : ∀ e ∈ w.journal, e.rename f = e) : Mirrors f w w where
  size := rfl
  loggers := hl
  clocks := rfl
  outlets := rfl
  hooks h := by
    have hb : (fun e => ((w.hooks.get h).body e).map (·.rename f)) = (w.hooks.get h).body := by
      funext e
      exact (List.map_congr_left (hh h e)).trans (List.map_id' _)
    rw [Hook.rename, hb]
  inHook := rfl
  formatted := rfl
  journal := ((List.map_congr_left hj).trans (List.map_id' _)).symm

end State

end LineLogger
