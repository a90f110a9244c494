import LineLogger.Proofs.Frames
import Mathlib

namespace LineLogger

structure Settings where
  threshold : Int32
  timeFormat : Time.Format
  clock : ClockId
  sink : Sink

def Settings.set (s : Settings) : Setting → Settings
  | .verbosity v => { s with threshold := Verbosity.thresholdOf v }
  | .timeFormat f => { s with timeFormat := f }
  | .clock c => { s with clock := c }
  | .sink k => { s with sink := k }
  | .hook _ => s

def Logger.settings (g : Logger) : Settings := ⟨g.threshold, g.timeFormat, g.clock, g.sink⟩

/-- What a command does to the content of the buffers. -/
inductive Entry
  | written (sink : Sink) (bytes : Bytes)
  | line (logger : LoggerId) (sink : Sink) (format : Time.Format) (now : Time.Instant)
      (label : Option Severity) (message : String)
  | cleared (buffer : BufferId)

namespace Entry

def bytes (i : BufferId) : Entry → Bytes
  | .written s b => if s = .outlet (.buffer i) then b else []
  | .line _ s f now label m =>
    if s = .outlet (.buffer i) then
      Layout.bytes (f.render now) (State.tag label m)
    else []
  | .cleared _ => []

def clears (i : BufferId) : Entry → Bool
  | .cleared j => j = i
  | .written .. => false
  | .line .. => false

def applied (i : BufferId) (b : Bytes) (e : Entry) : Bytes :=
  if e.clears i then [] else b ++ e.bytes i

def reading? (l : LoggerId) : Entry → Option Time.Instant
  | .line k _ _ now _ _ => if k = l then some now else none
  | .written .. => none
  | .cleared _ => none

end Entry

/-- What a buffer holds: all it got since it was cleared last. -/
def contents (i : BufferId) (es : List Entry) : Bytes :=
  (es.rtakeWhile (fun e => !e.clears i)).flatMap (·.bytes i)

theorem contents_concat (i : BufferId) (es : List Entry) (e : Entry) :
    contents i (es ++ [e]) = e.applied i (contents i es) := by
  cases he : e.clears i with
  | true =>
    rw [contents, List.rtakeWhile_concat_neg _ _ _ (by simp [he]), Entry.applied, he]
    rfl
  | false =>
    rw [contents, List.rtakeWhile_concat_pos _ _ _ (by simp [he]), Entry.applied, he]
    simp [contents]

theorem contents_written (i : BufferId) (b : Bytes) (es : List Entry) :
    contents i (.written (.outlet (.buffer i)) b :: es) = es.foldl (Entry.applied i) b := by
  induction es using List.reverseRecOn with
  | nil => simp [contents, List.rtakeWhile, Entry.clears, Entry.bytes]
  | append_singleton es e ih =>
    rw [← List.cons_append, contents_concat, ih, List.foldl_append]
    rfl

/-- The settings of all loggers, and all clocks. -/
@[ext]
structure Setup where
  settings : LoggerId → Settings
  clocks : ClockId → Time.Clock

namespace Setup

def accepts (s : Setup) (q : Call) : Bool := q.level ≤ (s.settings q.logger).threshold

def ticked (s : Setup) (l : LoggerId) : Setup :=
  { s with clocks := fun c =>
      if c = (s.settings l).clock then (s.clocks c).tick else s.clocks c }

/-- Settings change when they are set, and each accepted call reads a clock once. -/
def after (s : Setup) (c : Command) : Setup :=
  match c with
  | .set l x =>
    { s with settings := fun k => if k = l then (s.settings k).set x else s.settings k }
  | _ =>
    match c.call? with
    | some q => if s.accepts q then s.ticked q.logger else s
    | none => s

def afterAll (s : Setup) (cs : List Command) : Setup := cs.foldl after s

def line? (s : Setup) (q : Call) : Option Entry :=
  let g := s.settings q.logger
  if s.accepts q then
    some (.line q.logger g.sink g.timeFormat (s.clocks g.clock).now q.label q.message.content)
  else none

def entry? (s : Setup) (c : Command) : Option Entry :=
  match c with
  | .clear i => some (.cleared i)
  | .writeOnce (.outlet o) b => some (.written (.outlet o) b)
  | .write (.outlet o) b => some (.written (.outlet o) b)
  | _ => c.call?.bind s.line?

/-- What a run of commands does to the content of the buffers. -/
def history (s : Setup) : List Command → List Entry
  | [] => []
  | c :: cs => (s.entry? c).toList ++ (s.after c).history cs

def readingsOf (s : Setup) (l : LoggerId) (cs : List Command) : List Time.Instant :=
  (s.history cs).filterMap (·.reading? l)

variable {s : Setup} {c : Command} {q : Call} {l : LoggerId} {k : ClockId}

theorem history_append (s : Setup) (cs ds : List Command) :
    s.history (cs ++ ds) = s.history cs ++ (s.afterAll cs).history ds := by
  induction cs generalizing s with
  | nil => rfl
  | cons c cs ih =>
    change (s.entry? c).toList ++ (s.after c).history (cs ++ ds) = _
    rw [ih, ← List.append_assoc]
    rfl

theorem after_of_call (s : Setup) (h : c.call? = some q) :
    s.after c = if s.accepts q then s.ticked q.logger else s := by
  cases c with
  | set l x => cases h
  | _ =>
    rw [after.eq_def]
    simp only [h]

theorem entry?_of_call (s : Setup) (h : c.call? = some q) : s.entry? c = s.line? q := by
  have hb : c.call?.bind s.line? = s.line? q := by rw [h]; rfl
  cases c with
  | clear i => cases h
  | writeOnce k b =>
    cases k with
    | outlet o => cases h
    | writer v => exact hb
  | write k b =>
    cases k with
    | outlet o => cases h
    | writer v => exact hb
  | _ => exact hb

/-- The clock `k` is that of the logger `l` and of no other. -/
def Owns (s : Setup) (l : LoggerId) (k : ClockId) : Prop := ∀ m, (s.settings m).clock = k ↔ m = l

theorem after_of_no_call (s : Setup) (hc : c.call? = none) (h : ∀ l x, c ≠ .set l x) :
    s.after c = s := by
  cases c with
  | set l x => exact absurd rfl (h l x)
  | _ =>
    rw [after.eq_def]
    simp only [hc]

theorem settings_after (s : Setup) (h : ∀ l x, c ≠ .set l x) :
    (s.after c).settings = s.settings := by
  cases hc : c.call? with
  | none => rw [after_of_no_call s hc h]
  | some q =>
    rw [after_of_call s hc]
    split <;> rfl

theorem reading?_of_no_call (s : Setup) (hc : c.call? = none) (l : LoggerId) :
    (s.entry? c).toList.filterMap (·.reading? l) = [] := by
  have hb : (c.call?.bind s.line?).toList.filterMap (·.reading? l) = [] := by rw [hc]; rfl
  cases c with
  | clear i => rfl
  | writeOnce k b =>
    cases k with
    | outlet o => rfl
    | writer v => exact hb
  | write k b =>
    cases k with
    | outlet o => rfl
    | writer v => exact hb
  | _ => exact hb

end Setup

def Command.keepsClock (l : LoggerId) (k : ClockId) : Command → Prop
  | .set m (.clock n) => m ≠ l ∧ n ≠ k
  | _ => True

namespace Setup

variable {s : Setup} {c : Command} {l : LoggerId} {k : ClockId}

theorem owns_after (h : s.Owns l k) (hc : c.keepsClock l k) : (s.after c).Owns l k := by
  intro j
  cases c with
  | set m x =>
    change (if j = m then (s.settings j).set x else s.settings j).clock = k ↔ j = l
    by_cases hj : j = m
    · rw [if_pos hj]
      cases x with
      | clock n => simp [Settings.set, hc.2, hj, hc.1]
      | _ => exact h j
    · rw [if_neg hj]
      exact h j
  | _ =>
    rw [settings_after s (by simp)]
    exact h j

theorem readings_step (h : s.Owns l k) (hc : c.keepsClock l k) :
    (s.entry? c).toList.filterMap (·.reading? l) = [] ∧ (s.after c).clocks k = s.clocks k ∨
      (s.entry? c).toList.filterMap (·.reading? l) = [(s.clocks k).now] ∧
        (s.after c).clocks k = (s.clocks k).tick := by
  cases hq : c.call? with
  | none =>
    refine .inl ⟨reading?_of_no_call s hq l, ?_⟩
    cases c with
    | set m x => rfl
    | _ => rw [after_of_no_call s hq (by simp)]
  | some q =>
    rw [entry?_of_call s hq, after_of_call s hq, line?]
    cases ha : s.accepts q with
    | false => exact .inl ⟨rfl, rfl⟩
    | true =>
      by_cases hl : q.logger = l
      · have hk : (s.settings q.logger).clock = k := (h q.logger).mpr hl
        subst hl hk
        refine .inr ⟨?_, ?_⟩
        · simp [Entry.reading?]
        · simp [ticked]
      · have hk : k ≠ (s.settings q.logger).clock := fun he => hl ((h q.logger).mp he.symm)
        refine .inl ⟨?_, ?_⟩
        · simp [Entry.reading?, hl]
        · simp [ticked, hk]

theorem reading_of_owned {cs : List Command} (h : s.Owns l k) (hc : ∀ c ∈ cs, c.keepsClock l k)
    {i : Nat} {now : Time.Instant} (hi : (s.readingsOf l cs)[i]? = some now) :
    now = (s.clocks k).reading ((s.clocks k).taken + i) := by
  induction cs generalizing s i with
  | nil => cases hi
  | cons c cs ih =>
    have hc' := fun d hd => hc d (List.mem_cons_of_mem c hd)
    have ho := owns_after h (hc c List.mem_cons_self)
    rw [readingsOf, history, List.filterMap_append] at hi
    obtain ⟨hn, hk⟩ | ⟨hn, hk⟩ := readings_step h (hc c List.mem_cons_self)
    · rw [hn] at hi
      rw [← hk]
      exact ih ho hc' hi
    · rw [hn] at hi
      cases i with
      | zero => exact (Option.some.inj hi).symm
      | succ i =>
        have := ih ho hc' hi
        rw [hk] at this
        rw [this]
        change (s.clocks k).reading ((s.clocks k).taken + 1 + i) = _
        rw [Nat.add_assoc, Nat.add_comm 1 i]

end Setup

end LineLogger
