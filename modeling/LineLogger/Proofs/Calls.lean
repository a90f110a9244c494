import LineLogger.State.Execution

namespace LineLogger

/-- A logging call as it reaches its logger: the level that its line needs, the label and the
message. -/
structure Call where
  logger : LoggerId
  level : Int32
  label : Option Severity
  message : Message

namespace Call

def typed (l : LoggerId) (v : Severity) (tagged : Bool) (m : Message) : Call :=
  ⟨l, v.effectiveLevel, if tagged then some v else none, m⟩

/-- A bare ordinal from 0 to 4 stands for its severity. One above 4 is its own level and cannot be
tagged; there is no call for any other. -/
def raw? (l : LoggerId) (n : Int32) (tagged : Bool) (m : Message) : Option Call :=
  match Severity.ofOrdinal? n with
  | some v => some (typed l v tagged m)
  | none => if n < 0 || tagged then none else some ⟨l, n, none, m⟩

def written (v : Writer) (b : Bytes) : Call :=
  typed v.logger v.severity false (.text (Text.Utf8.toString b))

end Call

namespace Command

/-- The logging call that a command makes, if it makes one. -/
def call? : Command → Option Call
  | .log l v tagged m => some (.typed l v tagged m)
  | .logRaw l n tagged m => Call.raw? l n tagged m
  | .writeOnce (.writer v) b => some (.written v b)
  | .write (.writer v) b => if b = [] then none else some (.written v b)
  | _ => none

def flushed? : Command → Option LoggerId
  | .flush l => some l
  | .flushSink (.writer v) => some v.logger
  | _ => none

def reply : Command → Reply
  | .writeOnce _ b => .count b.length
  | _ => .done

end Command

namespace State

def submitCall (onFailure : OnFailure) (free : Nat) (held : List LoggerId) (q : Call) (w : State) :
    Option State :=
  w.submit onFailure free held q.logger q.level q.label q.message

theorem writeOnce_outlet (f : OnFailure) (held : List LoggerId) (o : Outlet) (b : Bytes)
    (w : State) : w.writeOnce f held (.outlet o) b =
      some ((w.offer o b).1, match (w.offer o b).2 with
        | .ok n => .count n
        | .error e => .ioFailed e) := by
  rw [writeOnce]
  rcases w.offer o b with ⟨u, e | n⟩ <;> rfl

theorem write_outlet (f : OnFailure) (held : List LoggerId) (o : Outlet) (b : Bytes) (w : State) :
    w.write f held (.outlet o) b =
      some ((w.deliver o b).1, match (w.deliver o b).2 with
        | none => .done
        | some e => .ioFailed e) := by
  rw [write]
  rcases w.deliver o b with ⟨u, _ | e⟩ <;> rfl

theorem flushSink_outlet (held : List LoggerId) (o : Outlet) (w : State) :
    w.flushSink held (.outlet o) =
      some ((w.flushOutlet o).1, match (w.flushOutlet o).2 with
        | none => .done
        | some e => .ioFailed e) := by
  rw [flushSink]
  rcases w.flushOutlet o with ⟨u, _ | e⟩ <;> rfl

theorem resolve_of_raw? {l : LoggerId} {n : Int32} {tagged : Bool} {m : Message} {q : Call}
    (h : Call.raw? l n tagged m = some q) : resolve n tagged = .ok (q.level, q.label) ∧
      q.logger = l ∧ q.message = m := by
  rw [Call.raw?] at h
  cases hv : Severity.ofOrdinal? n with
  | some v =>
    have hn : ¬n < 0 := by
      have he : v.ordinal = n := by simpa using List.find?_some hv
      rw [← he]
      cases v <;> decide
    rw [hv] at h
    cases h
    exact ⟨by rw [resolve, if_neg hn, hv]; rfl, rfl, rfl⟩
  | none =>
    simp only [hv] at h
    split at h
    · cases h
    · next hn =>
      cases h
      simp only [Bool.or_eq_true, decide_eq_true_eq, not_or, Bool.not_eq_true] at hn
      exact ⟨by rw [resolve, if_neg hn.1, hv]; simp [hn.2], rfl, rfl⟩

theorem resolve_of_raw?_none {l : LoggerId} {n : Int32} {tagged : Bool} {m : Message}
    (h : Call.raw? l n tagged m = none) : ∃ e, resolve n tagged = .error e := by
  rw [Call.raw?] at h
  rw [resolve]
  split
  · exact ⟨_, rfl⟩
  · next hn =>
    cases hv : Severity.ofOrdinal? n with
    | some v => simp [hv] at h
    | none => simp_all

/-- Whatever way a call comes in, the same happens to it. -/
theorem exec_of_call {c : Command} {q : Call} (h : c.call? = some q) (f : OnFailure)
    (held : List LoggerId) (w : State) :
    w.exec f held c = (w.submitCall f w.loggers.size held q).map (·, c.reply) := by
  cases c with
  | log l v tagged m =>
    cases h
    rfl
  | logRaw l n tagged m =>
    obtain ⟨hr, hl, hm⟩ := resolve_of_raw? h
    simp only [exec, hr]
    rw [submitCall, hl, hm]
    rfl
  | writeOnce s b =>
    cases s with
    | outlet o => cases h
    | writer v =>
      cases h
      rfl
  | write s b =>
    cases s with
    | outlet o => cases h
    | writer v =>
      simp only [Command.call?] at h
      split at h
      · cases h
      · next hb =>
        cases h
        have he : b.isEmpty = false := by simpa using hb
        simp only [exec, write, he]
        rfl
  | flush l => cases h
  | set l s => cases h
  | resetMetrics l => cases h
  | flushSink s => cases h
  | clear i => cases h

theorem exec_of_no_call {c : Command} (h : c.call? = none) (f g : OnFailure)
    (held : List LoggerId) (w : State) : w.exec f held c = w.exec g held c := by
  cases c with
  | log l v tagged m => cases h
  | logRaw l n tagged m =>
    obtain ⟨e, he⟩ := resolve_of_raw?_none h
    simp only [exec, he]
  | writeOnce s b =>
    cases s with
    | writer v => cases h
    | outlet o => rfl
  | write s b =>
    cases s with
    | outlet o => rfl
    | writer v =>
      by_cases hb : b = []
      · subst hb
        rfl
      · simp [Command.call?, hb] at h
  | flush l => rfl
  | set l s => rfl
  | resetMetrics l => rfl
  | flushSink s => rfl
  | clear i => rfl

end State

end LineLogger
