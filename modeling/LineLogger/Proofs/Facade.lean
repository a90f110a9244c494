import LineLogger.Global
import LineLogger.Logger.Text
import LineLogger.Proofs.Mirroring
import LineLogger.Writer
import Mathlib

namespace LineLogger

/-- What a logger changes or writes when it is asked to. The last five go to its writer of a
severity. -/
inductive Method
  | log (s : Severity) (tagged : Bool) (m : Message)
  | logRaw (n : Int32) (tagged : Bool) (m : Message)
  | set (s : Setting)
  | flush
  | resetMetrics
  | write (s : Severity) (b : Bytes)
  | writeAll (s : Severity) (b : Bytes)
  | writeText (s : Severity) (t : String)
  | writeFormatted (s : Severity) (t : String)
  | flushWriter (s : Severity)

inductive Query
  | threshold
  | isInVerbosity (s : Severity)
  | enabled (s : Severity)
  | timeFormat
  | metrics
  | text
  | prettyText
  | writerText (s : Severity)

inductive Answer
  | reply (r : Reply)
  | level (n : Int32)
  | verdict (b : Bool)
  | format (t : Time.Format)
  | counts (m : Metrics)
  | tally (n : UInt64)
  | shown (s : String)

inductive Request
  | act (m : Method)
  | record (c : Counter)
  | query (q : Query)

namespace Method

def on (l : LoggerId) : Method → Command
  | .log s tagged m => .log l s tagged m
  | .logRaw n tagged m => .logRaw l n tagged m
  | .set s => .set l s
  | .flush => .flush l
  | .resetMetrics => .resetMetrics l
  | .write s b => (⟨l, s⟩ : Writer).write b
  | .writeAll s b => (⟨l, s⟩ : Writer).writeAll b
  | .writeText s t => (⟨l, s⟩ : Writer).writeText t
  | .writeFormatted s t => (⟨l, s⟩ : Writer).writeFormatted t
  | .flushWriter s => (⟨l, s⟩ : Writer).flush

def rename (f : LoggerId → LoggerId) : Method → Method
  | .set s => .set (s.rename f)
  | m => m

theorem rename_on (f : LoggerId → LoggerId) (l : LoggerId) (m : Method) :
    (m.rename f).on (f l) = (m.on l).rename f := by cases m <;> rfl

end Method

namespace Query

def answer (l : LoggerId) (g : Logger) : Query → Answer
  | .threshold => .level g.threshold
  | .isInVerbosity s => .verdict (g.isInVerbosity s)
  | .enabled s => .verdict (g.enabled s)
  | .timeFormat => .format g.timeFormat
  | .metrics => .counts g.metrics
  | .text => .shown g.toText
  | .prettyText => .shown g.toPrettyText
  | .writerText s => .shown ((⟨l, s⟩ : Writer).toText g)

theorem answer_rename (f : LoggerId → LoggerId) (l : LoggerId) (g : Logger) (q : Query) :
    q.answer (f l) (g.rename f) = q.answer l g := by cases q <;> rfl

end Query

namespace State

def answered (w : State) (c : Command) : Option (State × Answer) :=
  (w.perform c).map fun p => (p.1, .reply p.2)

end State

namespace Request

def call (l : LoggerId) (r : Request) (w : State) : Option (State × Answer) :=
  match r with
  | .act m => w.answered (m.on l)
  | .record c => some (w.count l c, .tally (w.tally l c))
  | .query q => some (w, q.answer l (w.logger l))

def rename (f : LoggerId → LoggerId) : Request → Request
  | .act m => .act (m.rename f)
  | .record c => .record c
  | .query q => .query q

end Request

namespace Global

/-- The free functions, and the methods of the writers that one of them gives out. -/
inductive Function
  | log (s : Severity) (tagged : Bool) (t : String)
  | logFormatted (s : Severity) (tagged : Bool) (t : String)
  | logRaw (n : Int32) (tagged : Bool) (t : String)
  | logRawFormatted (n : Int32) (tagged : Bool) (t : String)
  | set (s : Setting)
  | flush
  | write (s : Severity) (b : Bytes)
  | writeAll (s : Severity) (b : Bytes)
  | writeText (s : Severity) (t : String)
  | writeFormatted (s : Severity) (t : String)
  | flushWriter (s : Severity)
  | threshold
  | isInVerbosity (s : Severity)

namespace Function

def call (φ : Function) (w : State) : Option (State × Answer) :=
  match φ with
  | .log s tagged t => w.answered (Global.log s tagged t)
  | .logFormatted s tagged t => w.answered (Global.logFormatted s tagged t)
  | .logRaw n tagged t => w.answered (Global.logRaw n tagged t)
  | .logRawFormatted n tagged t => w.answered (Global.logRawFormatted n tagged t)
  | .set s => w.answered (Global.set s)
  | .flush => w.answered Global.flush
  | .write s b => w.answered ((Global.writer s).write b)
  | .writeAll s b => w.answered ((Global.writer s).writeAll b)
  | .writeText s t => w.answered ((Global.writer s).writeText t)
  | .writeFormatted s t => w.answered ((Global.writer s).writeFormatted t)
  | .flushWriter s => w.answered (Global.writer s).flush
  | .threshold => some (w, .level (Global.threshold w))
  | .isInVerbosity s => some (w, .verdict (Global.isInVerbosity w s))

def request : Function → Request
  | .log s tagged t => .act (.log s tagged (.text t))
  | .logFormatted s tagged t => .act (.log s tagged (.formatted t))
  | .logRaw n tagged t => .act (.logRaw n tagged (.text t))
  | .logRawFormatted n tagged t => .act (.logRaw n tagged (.formatted t))
  | .set s => .act (.set s)
  | .flush => .act .flush
  | .write s b => .act (.write s b)
  | .writeAll s b => .act (.writeAll s b)
  | .writeText s t => .act (.writeText s t)
  | .writeFormatted s t => .act (.writeFormatted s t)
  | .flushWriter s => .act (.flushWriter s)
  | .threshold => .query .threshold
  | .isInVerbosity s => .query (.isInVerbosity s)

theorem call_eq (φ : Function) (w : State) : φ.call w = φ.request.call defaultLogger w := by
  cases φ <;> rfl

end Function

inductive Step
  | free (φ : Function)
  | direct (r : Request)

namespace Step

def call : Step → State → Option (State × Answer)
  | .free φ => φ.call
  | .direct r => r.call defaultLogger

def request : Step → Request
  | .free φ => φ.request
  | .direct r => r

theorem call_eq (s : Step) (w : State) : s.call w = s.request.call defaultLogger w := by
  cases s with
  | free φ => exact φ.call_eq w
  | direct r => rfl

end Step

end Global

namespace State

variable {α β : Type} {f : LoggerId → LoggerId} {R : State → State → Prop} {w u : State}

/-- The states and answers of a run, step by step, as far as it gets before it waits forever. -/
def course (step : α → State → Option (State × Answer)) : List α → State → List (State × Answer)
  | [], _ => []
  | a :: as, w =>
    match step a w with
    | none => []
    | some p => p :: course step as p.1

theorem course_agree {a : α → State → Option (State × Answer)}
    {b : β → State → Option (State × Answer)} {g : α → β}
    (hs : ∀ x w u, R w u → Agree R (a x w) (b (g x) u)) (h : R w u) (xs : List α) :
    List.Forall₂ (fun p q => R p.1 q.1 ∧ p.2 = q.2) (course a xs w) (course b (xs.map g) u) := by
  induction xs generalizing w u with
  | nil => exact .nil
  | cons x xs ih =>
    have hx := hs x w u h
    rw [List.map_cons, course, course]
    generalize a x w = p at hx
    generalize b (g x) u = q at hx
    cases hx with
    | some hx => exact .cons hx (ih hx.1)
    | none => exact .nil

theorem map_eq_of_forall₂ {γ : Type} {r : α → β → Prop} {xs : List α} {ys : List β} {k : α → γ}
    {m : β → γ} (h : List.Forall₂ r xs ys) (hr : ∀ x y, r x y → k x = m y) :
    xs.map k = ys.map m := by
  induction h with
  | nil => rfl
  | cons hx _ ih => exact congrArg₂ List.cons (hr _ _ hx) ih

theorem call_mirrors (hf : Function.Injective f) (h : Mirrors f w u) (l : LoggerId) (r : Request) :
    Agree (Mirrors f) (r.call l w) ((r.rename f).call (f l) u) := by
  have hR := parallel_mirrors hf
  cases r with
  | act m =>
    have hm := hR.perform h (m.on l)
    rw [← m.rename_on] at hm
    exact rel_map hm (fun p q hp => ⟨hp.1, congrArg Answer.reply hp.2⟩)
  | record c =>
    refine .some ⟨hR.count l c h, ?_⟩
    exact congrArg (fun m => Answer.tally (m.count c)) (h.metrics l).symm
  | query q =>
    refine .some ⟨h, ?_⟩
    dsimp only
    rw [h.loggers, q.answer_rename]

def withFresh (w : State) : State := { w with loggers := w.loggers.add {} }

theorem logger_withFresh (w : State) (l : LoggerId) :
    w.withFresh.logger l = if l = w.loggers.size then {} else w.logger l :=
  Store.get_add w.loggers l {}

/-- Whatever is asked of the free functions and the default logger, a fresh logger does the same
when it is asked: after every step answers, outlets, hook calls and counts are alike. -/
theorem facade_matches_instance (hw : w.logger defaultLogger = {})
    (hu : Mirrors (Equiv.swap defaultLogger w.loggers.size) w.withFresh u)
    (steps : List Global.Step) :
    let fresh := w.loggers.size
    let σ := Equiv.swap defaultLogger fresh
    u.logger fresh = {} ∧
      List.Forall₂
        (fun p q => p.2 = q.2 ∧ p.1.outlets = q.1.outlets ∧ p.1.invocations = q.1.invocations ∧
          (p.1.logger defaultLogger).metrics = (q.1.logger fresh).metrics ∧ Mirrors σ p.1 q.1)
        (course Global.Step.call steps w.withFresh)
        (course (Request.call fresh) (steps.map fun s => s.request.rename σ) u) := by
  intro fresh σ
  have hf : Function.Injective σ := (Equiv.swap defaultLogger fresh).injective
  have hσ : σ defaultLogger = fresh := Equiv.swap_apply_left _ _
  constructor
  · have hd : w.withFresh.logger defaultLogger = {} := by
      rw [logger_withFresh, hw]
      exact ite_self _
    rw [← hσ, hu.loggers, hd]
    rfl
  · have hs : ∀ (x : Global.Step) (a b : State), Mirrors σ a b →
        Agree (Mirrors σ) (x.call a) ((x.request.rename σ).call fresh b) := by
      intro x a b h
      have hc := call_mirrors hf h defaultLogger x.request
      rw [hσ] at hc
      rw [x.call_eq]
      exact hc
    refine (course_agree (g := fun s => s.request.rename σ) hs hu steps).imp fun p q h => ?_
    have hm := h.1.metrics defaultLogger
    rw [hσ] at hm
    exact ⟨h.2, h.1.outlets.symm, h.1.invocations.symm, hm.symm, h.1⟩

/-- A program whose hook reports a loss through the default logger. The device fails once. -/
def struck : State :=
  let stop : IoError := ⟨.other, "stop"⟩
  let say : Command := .log defaultLogger .error true (.text "a line was lost")
  { State.initial (.fixed ⟨0, 0, 0⟩) with
    devices := { fallback := { writes := [.fails stop], flushes := [some stop] } }
    hooks := { fallback := ⟨"say", fun _ => [say]⟩ } }

theorem initial_mirrors (c : Time.Clock) :
    Mirrors (Equiv.swap 0 1) (initial c).withFresh (initial c).withFresh := by
  have hl : ∀ k, (initial c).withFresh.logger k = {} := fun k => by
    rcases k with _ | _ | k <;> rfl
  refine mirrors_self (fun l => ?_) (fun h e d hd => ?_) (fun e he => ?_)
  · rw [hl, hl]
    rfl
  · cases hd
  · cases he

theorem struck_reports_alike :
    let steps : List Global.Step :=
      [.free (.set (.sink (.outlet (.device 0)))), .free (.set (.hook (some 0))),
        .free (.log .warn true "up"), .free .flush, .direct (.query .metrics)]
    let answers : List Answer :=
      [.reply .done, .reply .done, .reply .done, .reply (.failed (.io ⟨.other, "stop"⟩)),
        .counts { linesWritten := 1, writeFailures := 1, flushFailures := 1 }]
    ((course Global.Step.call steps struck.withFresh).map (·.2) = answers ∧
      (course (Request.call 1) (steps.map (·.request))
        (struck.withFresh.rename (Equiv.swap 0 1))).map (·.2) = answers) ∧
    ∀ (c : Time.Clock) (more : List Global.Step),
      (course Global.Step.call more (initial c).withFresh).map (·.2) =
        (course (Request.call 1) (more.map fun s => s.request.rename (Equiv.swap 0 1))
          (initial c).withFresh).map (·.2) := by
  intro steps answers
  have ha : (course Global.Step.call steps struck.withFresh).map (·.2) = answers := by cbv
  have hm := mirrors_rename (Equiv.swap defaultLogger 1).injective struck.withFresh
  refine ⟨⟨ha, ?_⟩, fun c more => ?_⟩
  · obtain ⟨-, hc⟩ := facade_matches_instance (w := struck) rfl hm steps
    exact (map_eq_of_forall₂ hc fun p q h => h.1).symm.trans ha
  · obtain ⟨-, hc⟩ := facade_matches_instance (w := initial c) rfl (initial_mirrors c) more
    exact map_eq_of_forall₂ hc fun p q h => h.1

end State

end LineLogger
