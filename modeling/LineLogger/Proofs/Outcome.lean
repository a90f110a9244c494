import LineLogger.Proofs.Descent

namespace LineLogger

namespace State

/-- What lies between two states: what has come out, which loggers read their clocks, what each one
counted, and what went on record. All else is the same. -/
structure Leaves (w u : State) (out : Outlets) (readers : List LoggerId)
    (counted : LoggerId → Option Counter) (es : List Event) : Prop where
  outlets : u.outlets = out
  clocks : ∀ c, u.clocks.get c = (w.clocks.get c).ticked (w.readings readers c)
  loggers : ∀ k, u.logger k = ((counted k).map (w.logger k).count).getD (w.logger k)
  journal : u.journal = w.journal ++ es
  hooks : u.hooks = w.hooks
  inHook : u.inHook = w.inHook

theorem Leaves.hook {w u : State} {out : Outlets} {rs : List LoggerId}
    {counted : LoggerId → Option Counter} {es : List Event} (h : Leaves w u out rs counted es)
    (k : LoggerId) : (u.logger k).hook = (w.logger k).hook := by
  rw [h.loggers]
  cases counted k <;> rfl

variable {c : Counter}

/-- What no single count changes stays the same when many loggers count. -/
theorem countAll_frame {α : Type} {f : State → α} (hf : ∀ w l, f (w.count l c) = f w) (w : State)
    (ls : List LoggerId) : f (w.countAll ls c) = f w := by
  induction ls generalizing w with
  | nil => rfl
  | cons l ls ih => exact (ih _).trans (hf w l)

theorem logger_countAll (w : State) {ls : List LoggerId} (h : ls.Nodup) (k : LoggerId) :
    (w.countAll ls c).logger k = if k ∈ ls then (w.logger k).count c else w.logger k := by
  induction ls generalizing w with
  | nil => rfl
  | cons l ls ih =>
    obtain ⟨hl, hn⟩ := List.nodup_cons.mp h
    change ((w.count l c).countAll ls c).logger k = _
    rw [ih _ hn, logger_count]
    by_cases hk : k = l
    · subst hk
      rw [if_neg hl, if_pos rfl, if_pos List.mem_cons_self]
    · simp only [hk, if_false, List.mem_cons, false_or]

theorem tally_countAll_of_ne {d : Counter} (h : c ≠ d) (w : State) (ls : List LoggerId)
    (k : LoggerId) : (w.countAll ls c).tally k d = w.tally k d := by
  apply countAll_frame (f := fun w => w.tally k d)
  intro w l
  rw [tally_count, if_neg (fun hc => h hc.2), UInt64.add_zero]

end State

namespace Landing

variable {w : State} {a : Landing} {e : IoError}

def counters (a : Landing) (k : LoggerId) : Option Counter :=
  if k ∈ a.passed then some .written
  else if k = a.logger then some a.fate.counter
  else none

def losses (a : Landing) : List Event :=
  match a.fate with
  | .filtered => []
  | .written => []
  | .lost e => [.lost a.logger e]

theorem logger_ended (a : Landing) (k : LoggerId) : a.ended.logger k =
    if k = a.logger then (a.state.logger k).count a.fate.counter else a.state.logger k := by
  rw [ended]
  cases a.fate with
  | filtered => exact State.logger_count _ _ _ _
  | written => exact State.logger_count _ _ _ _
  | lost e => exact State.logger_count _ _ _ _

theorem inHook_ended (a : Landing) : a.ended.inHook = a.state.inHook := by
  rw [ended]
  cases a.fate <;> rfl

theorem hook_ended (a : Landing) :
    (a.ended.logger a.logger).hook = (a.state.logger a.logger).hook := by
  rw [logger_ended, if_pos rfl]
  rfl

theorem tally_ended (a : Landing) (k : LoggerId) (c : Counter) :
    a.ended.tally k c =
      a.state.tally k c + if k = a.logger ∧ a.fate.counter = c then 1 else 0 := by
  rw [ended]
  cases a.fate with
  | filtered => exact State.tally_count _ _ _ _ _
  | written => exact State.tally_count _ _ _ _ _
  | lost e => exact State.tally_count _ _ _ _ _

theorem leaves_ended (hd : State.Descends w a) :
    State.Leaves w a.ended a.state.outlets a.readers
      (fun k => if k = a.logger then some a.fate.counter else none)
      (a.path.map .reached ++ a.losses) where
  outlets := by
    rw [ended]
    cases a.fate <;> rfl
  clocks c := by
    rw [← hd.clocks, ended]
    cases a.fate <;> rfl
  loggers k := by
    rw [logger_ended, State.logger, State.logger, hd.loggers]
    split <;> rfl
  journal := by
    rw [← List.append_assoc, ← hd.journal, ended, losses]
    cases a.fate with
    | lost e => rfl
    | _ => exact (List.append_nil _).symm
  hooks := by
    rw [← hd.hooks, ended]
    cases a.fate <;> rfl
  inHook := a.inHook_ended.trans hd.inHook

theorem leaves_counted (hd : State.Descends w a) (hn : a.path.Nodup) :
    State.Leaves w a.counted a.state.outlets a.readers a.counters
      (a.path.map .reached ++ a.losses) := by
  have he := leaves_ended hd
  obtain ⟨hl, hp⟩ := List.nodup_cons.mp (List.pairwise_reverse.mp (hn.imp Ne.symm))
  refine ⟨?_, fun c => ?_, fun k => ?_, ?_, ?_, ?_⟩
  · exact (State.countAll_frame (fun _ _ => rfl) a.ended a.passed).trans he.outlets
  · rw [← he.clocks]
    exact State.countAll_frame (f := fun w => w.clocks.get c) (fun _ _ => rfl) a.ended a.passed
  · rw [counted, State.logger_countAll _ hp, he.loggers, counters]
    by_cases hk : k ∈ a.passed
    · have : k ≠ a.logger := fun h => hl (h ▸ hk)
      simp [hk, this]
    · simp [hk]
  · exact (State.countAll_frame (fun _ _ => rfl) a.ended a.passed).trans he.journal
  · exact (State.countAll_frame (fun _ _ => rfl) a.ended a.passed).trans he.hooks
  · exact (State.countAll_frame (fun _ _ => rfl) a.ended a.passed).trans he.inHook

end Landing

end LineLogger
