import LineLogger.Proofs.Conservation
import LineLogger.Proofs.Streams

namespace LineLogger

inductive Field
  | threshold
  | timeFormat
  | clock
  | sink
  | hook

abbrev Field.Value : Field → Type
  | .threshold => Int32
  | .timeFormat => Time.Format
  | .clock => ClockId
  | .sink => Sink
  | .hook => Option HookId

namespace Logger

variable {l m : Logger}

def field (l : Logger) : (f : Field) → f.Value
  | .threshold => l.threshold
  | .timeFormat => l.timeFormat
  | .clock => l.clock
  | .sink => l.sink
  | .hook => l.hook

theorem ext_field (h : ∀ f, l.field f = m.field f) (hm : l.metrics = m.metrics) : l = m := by
  cases l
  cases m
  have h₁ := h .threshold
  have h₂ := h .timeFormat
  have h₃ := h .clock
  have h₄ := h .sink
  have h₅ := h .hook
  simp_all [field]

end Logger

/-- What a setting makes of a field, if the field is the one that it sets. -/
def Setting.value? : Setting → (f : Field) → Option f.Value
  | .verbosity v, .threshold => some (Verbosity.thresholdOf v)
  | .timeFormat x, .timeFormat => some x
  | .clock c, .clock => some c
  | .sink s, .sink => some s
  | .hook h, .hook => some h
  | _, _ => none

namespace Logger

variable (l : Logger)

theorem field_set (s : Setting) (f : Field) :
    (l.set s).field f = (s.value? f).getD (l.field f) := by
  cases s <;> cases f <;> rfl

theorem field_setAll (ss : List Setting) (f : Field) :
    (ss.foldl set l).field f = (ss.filterMap (·.value? f)).getLastD (l.field f) := by
  induction ss generalizing l with
  | nil => rfl
  | cons s ss ih =>
    rw [List.foldl_cons, ih, field_set, List.filterMap_cons]
    cases s.value? f with
    | none => rfl
    | some x => exact List.getLastD_cons.symm

theorem metrics_setAll (ss : List Setting) : (ss.foldl set l).metrics = l.metrics := by
  induction ss generalizing l with
  | nil => rfl
  | cons s ss ih =>
    rw [List.foldl_cons, ih]
    cases s <;> rfl

end Logger

namespace Builder

variable {b : Builder} {c d : Call} {calls before after : List Call} {f : Field}

def Call.value? : Call → (f : Field) → Option f.Value
  | .verbosity v, .threshold => some v.threshold
  | .config c, .threshold => some c.verbosity.threshold
  | .config c, .timeFormat => some c.timeFormat
  | .timeFormat x, .timeFormat => some x
  | .clock c, .clock => some c
  | .sink s, .sink => some s
  | .hook h, .hook => some (some h)
  | _, _ => none

def Call.Disjoint (c d : Call) : Prop := ∀ f, c.value? f = none ∨ d.value? f = none

theorem Call.values_settings (c : Call) (f : Field) :
    c.settings.filterMap (·.value? f) = (c.value? f).toList := by
  cases c <;> cases f <;> rfl

theorem build_apply (b : Builder) (c : Call) :
    (b.apply c).build = c.settings.foldl Logger.set b.build := by
  cases c <;> rfl

theorem build_foldl (b : Builder) (calls : List Call) :
    (calls.foldl apply b).build = (calls.flatMap Call.settings).foldl Logger.set b.build := by
  induction calls generalizing b with
  | nil => rfl
  | cons c calls ih => rw [List.foldl_cons, ih, build_apply, List.flatMap_cons, List.foldl_append]

theorem build_ofCalls (calls : List Call) :
    (ofCalls calls).build = (calls.flatMap Call.settings).foldl Logger.set {} :=
  build_foldl {} calls

theorem metrics_build (calls : List Call) : (ofCalls calls).build.metrics = {} := by
  rw [build_ofCalls, Logger.metrics_setAll]

theorem field_build (calls : List Call) (f : Field) :
    (ofCalls calls).build.field f =
      (calls.filterMap (·.value? f)).getLastD (({} : Logger).field f) := by
  have hv : (calls.flatMap Call.settings).filterMap (·.value? f) =
      calls.filterMap (·.value? f) := by
    rw [List.filterMap_flatMap, List.filterMap_eq_flatMap_toList]
    exact List.flatMap_congr fun c _ => c.values_settings f
  rw [build_ofCalls, Logger.field_setAll, hv]

theorem build_swap (h : c.Disjoint d) (before after : List Call) :
    (ofCalls (before ++ c :: d :: after)).build = (ofCalls (before ++ d :: c :: after)).build := by
  apply Logger.ext_field
  · intro f
    rw [field_build, field_build]
    obtain hn | hn := h f <;> simp [List.filterMap_cons, hn]
  · rw [metrics_build, metrics_build]

end Builder

namespace State

theorem follow_settings (w : State) (g : Logger) (ss : List Setting) :
    ({ w with loggers := w.loggers.add g } : State).follow
        (ss.map fun s => .command (.set w.loggers.size s)) =
      some { w with loggers := w.loggers.add (ss.foldl Logger.set g) } := by
  induction ss generalizing g with
  | nil => rfl
  | cons s ss ih =>
    have hs : ({ w with loggers := w.loggers.add g } : State).step
        (.command (.set w.loggers.size s)) =
          some { w with loggers := w.loggers.add (g.set s) } := by
      rw [step, perform, exec, change_unlocked, modifyLogger, Store.modify_add]
      rfl
    rw [List.map_cons, follow, hs]
    exact ih (g.set s)

end State

namespace Builder

/-- Building a logger comes to the same as making a default one and setting it up call by call, so
of the calls that touch a field the last one counts. -/
theorem built_as_set (w : State) (calls : List Call) :
    (ofCalls calls).build = (calls.flatMap Call.settings).foldl Logger.set {} ∧
      w.step (.create (ofCalls calls)) = w.follow (.create {} ::
        (calls.flatMap Call.settings).map fun s => .command (.set w.loggers.size s)) ∧
      (ofCalls calls).build.metrics = {} ∧
      (∀ f, (ofCalls calls).build.field f =
        (calls.filterMap (·.value? f)).getLastD (({} : Logger).field f)) ∧
      (∀ before c d after, calls = before ++ c :: d :: after → c.Disjoint d →
        (ofCalls calls).build = (ofCalls (before ++ d :: c :: after)).build) ∧
      (∀ c, Logger.ofConfig c = (ofCalls [.config c]).build) ∧
      ∀ v, Logger.withVerbosity (some v) = (ofCalls [.verbosity v]).build := by
  refine ⟨build_ofCalls calls, ?_, metrics_build calls, field_build calls, ?_, fun c => rfl,
    fun v => rfl⟩
  · rw [State.step, build_ofCalls]
    exact (State.follow_settings w {} _).symm
  · rintro before c d after rfl h
    exact build_swap h before after

def overridden : List Call :=
  [.verbosity (.ofLevel 3), .config ⟨.silent, ⟨"%H"⟩⟩, .clock 2, .timeFormat ⟨"%M"⟩]

theorem overridden_is_quiet :
    (ofCalls overridden).build.threshold = -1 ∧
      (ofCalls overridden).build.timeFormat = ⟨"%M"⟩ ∧
      (ofCalls overridden).build = (ofCalls [.verbosity (.ofLevel 3), .clock 2,
        .config ⟨.silent, ⟨"%H"⟩⟩, .timeFormat ⟨"%M"⟩]).build := by
  obtain ⟨-, -, -, hf, hs, -⟩ := built_as_set (.initial (.fixed ⟨0, 0, 0⟩)) overridden
  have hd : Call.Disjoint (.config ⟨.silent, ⟨"%H"⟩⟩) (.clock 2) := by
    intro f
    cases f
    case clock => exact .inl rfl
    all_goals exact .inr rfl
  exact ⟨hf .threshold, hf .timeFormat, hs [_] _ _ [_] rfl hd⟩

end Builder

end LineLogger
