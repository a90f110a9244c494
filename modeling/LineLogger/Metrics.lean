namespace LineLogger

/-- What a logger counts. Each counter has 64 bits and wraps. -/
structure Metrics where
  linesWritten : UInt64 := 0
  linesFiltered : UInt64 := 0
  writeFailures : UInt64 := 0
  flushFailures : UInt64 := 0
  deriving DecidableEq, Repr

inductive Counter
  | written
  | filtered
  | writeFailure
  | flushFailure
  deriving DecidableEq, Repr

namespace Metrics

def count (m : Metrics) : Counter → UInt64
  | .written => m.linesWritten
  | .filtered => m.linesFiltered
  | .writeFailure => m.writeFailures
  | .flushFailure => m.flushFailures

def record (m : Metrics) : Counter → Metrics
  | .written => { m with linesWritten := m.linesWritten + 1 }
  | .filtered => { m with linesFiltered := m.linesFiltered + 1 }
  | .writeFailure => { m with writeFailures := m.writeFailures + 1 }
  | .flushFailure => { m with flushFailures := m.flushFailures + 1 }

def failureRate (m : Metrics) : Float :=
  let failed := m.writeFailures.toFloat
  let total := m.linesWritten.toFloat + failed
  if total == 0.0 then 0.0 else (failed / total) * 100.0

def toText (m : Metrics) : String :=
  s!"LoggerMetrics \x7b lines_written: {m.linesWritten}, lines_filtered: {m.linesFiltered}, " ++
    s!"write_failures: {m.writeFailures}, flush_failures: {m.flushFailures} \x7d"

@[ext]
theorem ext_count {m n : Metrics} (h : ∀ c, m.count c = n.count c) : m = n := by
  cases m
  cases n
  have h₁ := h .written
  have h₂ := h .filtered
  have h₃ := h .writeFailure
  have h₄ := h .flushFailure
  simp_all [count]

@[simp]
theorem count_default (c : Counter) : ({} : Metrics).count c = 0 := by cases c <;> rfl

theorem count_record (m : Metrics) (c d : Counter) :
    (m.record c).count d = if c = d then m.count d + 1 else m.count d := by
  cases c <;> cases d <;> rfl

end Metrics

/-- A growing family of metrics. Members are known by the order in which they were made. -/
abbrev MetricsFamily := List Metrics

namespace MetricsFamily

inductive Step
  | record (counter : Counter) (index : Nat)
  | reset (index : Nat)
  | clone (index : Nat)
  | fresh

def member (f : MetricsFamily) (i : Nat) : Metrics := f.getD i {}

def step (f : MetricsFamily) : Step → MetricsFamily
  | .record c i => f.modify i (·.record c)
  | .reset i => f.modify i (fun _ => {})
  | .clone i => f ++ [f.member i]
  | .fresh => f ++ [{}]

/-- What a record step answers: the counter as it was before. -/
def answer (f : MetricsFamily) : Step → Option UInt64
  | .record c i => some ((f.member i).count c)
  | _ => none

end MetricsFamily

end LineLogger
