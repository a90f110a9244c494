import LineLogger.Proofs.Frames

namespace LineLogger

/-- What becomes of a line where its way ends. -/
inductive Fate
  | filtered
  | written
  | lost (error : IoError)

def Fate.ofFailure : Option IoError → Fate
  | none => .written
  | some e => .lost e

def Fate.counter : Fate → Counter
  | .filtered => .filtered
  | .written => .written
  | .lost _ => .writeFailure

/-- Where the way of a line ends. The loggers that handed the line on to a writer are `passed`, the
last one first. Nothing is counted yet. -/
structure Landing where
  state : State
  passed : List LoggerId
  logger : LoggerId
  fate : Fate

namespace Landing

def ofDelivery (l : LoggerId) (p : State × Option IoError) : Landing :=
  ⟨p.1, [], l, .ofFailure p.2⟩

def via (l : LoggerId) (a : Landing) : Landing := { a with passed := a.passed ++ [l] }

def path (a : Landing) : List LoggerId := (a.logger :: a.passed).reverse

def readers (a : Landing) : List LoggerId :=
  match a.fate with
  | .filtered => a.passed.reverse
  | .written => a.path
  | .lost _ => a.path

theorem readers_ofDelivery (l : LoggerId) (p : State × Option IoError) :
    (ofDelivery l p).readers = [l] := by
  rcases p with ⟨u, _ | e⟩ <;> rfl

theorem fate_ofDelivery_ne (l : LoggerId) (p : State × Option IoError) :
    (ofDelivery l p).fate ≠ .filtered := by
  rcases p with ⟨u, _ | e⟩ <;> exact Fate.noConfusion

theorem path_via (a : Landing) (l : LoggerId) : (a.via l).path = l :: a.path := by
  simp [path, via]

theorem readers_via (a : Landing) (l : LoggerId) : (a.via l).readers = l :: a.readers := by
  cases hf : a.fate <;> simp [readers, path, via, hf]

end Landing

namespace State

def handedOn (w : State) (q : Call) (v : Writer) : Call := .written v (w.lineOf q)

/-- The way of a line from a logger through its writers, without what is done on the way back. -/
def descend (free : Nat) (held : List LoggerId) (q : Call) (w : State) : Option Landing :=
  if w.admits q then
    if q.logger ∈ held then none
    else
      match free with
      | 0 => none
      | free + 1 =>
        match (w.logger q.logger).sink with
        | .writer v =>
          (descend free (q.logger :: held) (w.handedOn q v) (w.opened q)).map (·.via q.logger)
        | .outlet o => some (.ofDelivery q.logger ((w.opened q).deliver o (w.lineOf q)))
  else some ⟨w.note (.reached q.logger), [], q.logger, .filtered⟩

def countAll (w : State) (ls : List LoggerId) (c : Counter) : State :=
  ls.foldl (fun w l => w.count l c) w

def afterLoss (w : State) (l : LoggerId) (e : IoError) : State :=
  (w.note (.lost l e)).count l .writeFailure

end State

namespace Landing

/-- The state when the last logger has counted what became of the line. -/
def ended (a : Landing) : State :=
  match a.fate with
  | .filtered => a.state.count a.logger .filtered
  | .written => a.state.count a.logger .written
  | .lost e => a.state.afterLoss a.logger e

def counted (a : Landing) : State := a.ended.countAll a.passed .written

/-- The way back: the last logger counts what became of the line, and sees to its loss; then every
logger that handed it on counts a line written. -/
def settle (onFailure : OnFailure) (held : List LoggerId) (a : Landing) : Option State :=
  match a.fate with
  | .lost e =>
    (onFailure (a.passed ++ held) a.logger e a.ended).map (·.countAll a.passed .written)
  | .filtered => some a.counted
  | .written => some a.counted

theorem counted_via (l : LoggerId) (a : Landing) :
    (a.via l).counted = a.counted.count l .written := List.foldl_append

theorem settle_via (f : OnFailure) (held : List LoggerId) (l : LoggerId) (a : Landing) :
    (a.via l).settle f held = (a.settle f (l :: held)).map (·.count l .written) := by
  have hv : (a.via l).fate = a.fate := rfl
  have hc := congrArg some (counted_via l a)
  rw [settle, settle, hv]
  cases a.fate with
  | filtered => exact hc
  | written => exact hc
  | lost e =>
    dsimp only
    rw [Option.map_map, via, List.append_assoc, List.singleton_append]
    congr 1
    funext u
    exact List.foldl_append

end Landing

namespace State

variable {f : OnFailure} {free : Nat} {held : List LoggerId} {q : Call} {w : State}

theorem submitCall_of_not_admits (h : w.admits q = false) :
    w.submitCall f free held q = some ((w.note (.reached q.logger)).count q.logger .filtered) := by
  have ha : (w.logger q.logger).admits q.level = false := h
  cases free <;> simp [submitCall, submit, ha]

theorem submitCall_of_mem (ha : w.admits q = true) (hl : q.logger ∈ held) :
    w.submitCall f free held q = none := by
  have ha' : (w.logger q.logger).admits q.level = true := ha
  cases free <;> simp [submitCall, submit, ha', hl]

theorem submitCall_zero (ha : w.admits q = true) : w.submitCall f 0 held q = none := by
  have ha' : (w.logger q.logger).admits q.level = true := ha
  simp [submitCall, submit, ha']

theorem submitCall_succ (ha : w.admits q = true) (hl : q.logger ∉ held) :
    w.submitCall f (free + 1) held q =
      match (w.logger q.logger).sink with
      | .writer v =>
        ((w.opened q).submitCall f free (q.logger :: held) (w.handedOn q v)).map
          (·.count q.logger .written)
      | .outlet o =>
        match (w.opened q).deliver o (w.lineOf q) with
        | (u, none) => some (u.count q.logger .written)
        | (u, some e) => f held q.logger e (u.afterLoss q.logger e) := by
  have ha' : (w.logger q.logger).admits q.level = true := ha
  have ho : (((w.note (.reached q.logger)).textOf q.message).1.readClock q.logger).1 =
      w.opened q := rfl
  have hb : (w.logger q.logger).line
      (((w.note (.reached q.logger)).textOf q.message).1.readClock q.logger).2
      (tag q.label ((w.note (.reached q.logger)).textOf q.message).2) = w.lineOf q := by
    obtain ⟨l, n, t, m⟩ := q
    cases m <;> rfl
  rw [submitCall, submit]
  simp only [logger_note, ha', if_true, hl, if_false, ho, logger_opened, hb]
  cases (w.logger q.logger).sink with
  | writer v =>
    dsimp only
    have hi : (w.opened q).submitCall f free (q.logger :: held) (w.handedOn q v) =
        submit f free (q.logger :: held) v.logger v.severity.effectiveLevel none
          (.text (Text.Utf8.toString (w.lineOf q))) (w.opened q) := rfl
    rw [hi]
    generalize submit f free (q.logger :: held) v.logger v.severity.effectiveLevel none
      (.text (Text.Utf8.toString (w.lineOf q))) (w.opened q) = u
    cases u <;> rfl
  | outlet o => rfl

theorem submitCall_delivered {o : Outlet} (ha : w.admits q = true) (hl : q.logger ∉ held)
    (hf : 0 < free) (hs : (w.logger q.logger).sink = .outlet o)
    (hd : ((w.opened q).deliver o (w.lineOf q)).2 = none) :
    w.submitCall f free held q =
      some (((w.opened q).deliver o (w.lineOf q)).1.count q.logger .written) := by
  obtain ⟨n, rfl⟩ := Nat.exists_eq_add_one_of_ne_zero (Nat.ne_zero_of_lt hf)
  rw [submitCall_succ ha hl, hs]
  dsimp only
  generalize (w.opened q).deliver o (w.lineOf q) = p at hd
  obtain ⟨u, e⟩ := p
  cases hd
  rfl

/-- A call goes all the way down before anything is counted on the way back. -/
theorem submitCall_eq_descend (f : OnFailure) (free : Nat) (held : List LoggerId) (q : Call)
    (w : State) :
    w.submitCall f free held q = (w.descend free held q).bind (·.settle f held) := by
  fun_induction descend free held q w with
  | case1 free held q w ha hl => exact submitCall_of_mem ha hl
  | case2 held q w ha hl => exact submitCall_zero ha
  | case3 held q w ha hl free v hs ih =>
    rw [submitCall_succ ha hl, hs]
    dsimp only
    rw [ih]
    cases (w.opened q).descend free (q.logger :: held) (w.handedOn q v) with
    | none => rfl
    | some a => exact (Landing.settle_via f held q.logger a).symm
  | case4 held q w ha hl free o hs =>
    rw [submitCall_succ ha hl, hs]
    dsimp only
    rcases (w.opened q).deliver o (w.lineOf q) with ⟨u, _ | e⟩
    · rfl
    · exact Option.map_id'.symm
  | case5 free held q w ha =>
    rw [submitCall_of_not_admits (by simpa using ha)]
    rfl

theorem exec_of_descend {c : Command} {a : Landing} (hq : c.call? = some q) (f : OnFailure)
    (h : w.descend w.loggers.size held q = some a) :
    w.exec f held c = (a.settle f held).map (·, c.reply) := by
  rw [exec_of_call hq, submitCall_eq_descend, h]
  rfl

theorem descend_of_exec {c : Command} {u : State} {r : Reply} (hq : c.call? = some q)
    (h : w.exec f held c = some (u, r)) :
    ∃ a, w.descend w.loggers.size held q = some a ∧ a.settle f held = some u := by
  rw [exec_of_call hq, submitCall_eq_descend] at h
  obtain ⟨x, hx, he⟩ := Option.map_eq_some_iff.mp h
  obtain ⟨a, ha, hs⟩ := Option.bind_eq_some_iff.mp hx
  cases he
  exact ⟨a, ha, hs⟩

theorem descend_of_not_admits (h : w.admits q = false) :
    w.descend free held q = some ⟨w.note (.reached q.logger), [], q.logger, .filtered⟩ := by
  cases free <;> simp [descend, h]

theorem descend_succ (ha : w.admits q = true) (hl : q.logger ∉ held) :
    w.descend (free + 1) held q =
      match (w.logger q.logger).sink with
      | .writer v =>
        ((w.opened q).descend free (q.logger :: held) (w.handedOn q v)).map (·.via q.logger)
      | .outlet o => some (.ofDelivery q.logger ((w.opened q).deliver o (w.lineOf q))) := by
  rw [descend, if_pos ha, if_neg hl]

theorem free_of_descend {a : Landing} (ha : w.admits q = true)
    (h : w.descend free held q = some a) : q.logger ∉ held ∧ ∃ n, free = n + 1 := by
  rw [descend.eq_def, if_pos ha] at h
  split at h
  · cases h
  · next hl =>
    cases free with
    | zero => cases h
    | succ n => exact ⟨hl, n, rfl⟩

def readings (w : State) (ls : List LoggerId) (c : ClockId) : Nat :=
  ls.countP (fun l => (w.logger l).clock = c)

theorem readings_cons (w : State) (l : LoggerId) (ls : List LoggerId) (c : ClockId) :
    w.readings (l :: ls) c = w.readings [l] c + w.readings ls c := by
  rw [Nat.add_comm]
  simp [readings, List.countP_cons]

theorem readings_congr {u : State} (h : u.loggers = w.loggers) (ls : List LoggerId) (c : ClockId) :
    u.readings ls c = w.readings ls c := by
  have he : u.logger = w.logger := by
    funext k
    exact congrArg (·.get k) h
  rw [readings, he]
  rfl

theorem get_clocks_opened (w : State) (q : Call) (c : ClockId) :
    (w.opened q).clocks.get c = (w.clocks.get c).ticked (w.readings [q.logger] c) := by
  rw [clocks_opened, Store.get_modify]
  by_cases h : c = (w.logger q.logger).clock
  · simp [readings, h, Time.Clock.ticked_one]
  · simp [readings, h, Ne.symm h, Time.Clock.ticked_zero]

/-- What the way down adds, and what it leaves alone. -/
structure Descends (w : State) (a : Landing) : Prop where
  loggers : a.state.loggers = w.loggers
  hooks : a.state.hooks = w.hooks
  inHook : a.state.inHook = w.inHook
  journal : a.state.journal = w.journal ++ a.path.map .reached
  clocks : ∀ c, a.state.clocks.get c = (w.clocks.get c).ticked (w.readings a.readers c)
  outlets : a.fate = .filtered → a.state.outlets = w.outlets

theorem Descends.tally {a : Landing} (h : Descends w a) (k : LoggerId) (c : Counter) :
    a.state.tally k c = w.tally k c := by
  rw [State.tally, State.tally, logger, h.loggers]
  rfl

theorem Descends.via {a : Landing} (h : Descends (w.opened q) a) :
    Descends w (a.via q.logger) where
  loggers := h.loggers.trans (loggers_opened w q)
  hooks := h.hooks.trans (hooks_opened w q)
  inHook := h.inHook.trans (inHook_opened w q)
  journal := by
    show a.state.journal = _
    rw [h.journal, journal_opened, Landing.path_via, List.map_cons, List.append_assoc,
      List.singleton_append]
  clocks c := by
    show a.state.clocks.get c = _
    rw [h.clocks, get_clocks_opened, readings_congr (loggers_opened w q), Landing.readers_via,
      Time.Clock.ticked_ticked, ← readings_cons]
  outlets hf := (h.outlets hf).trans (outlets_opened w q)

theorem descends_of_descend {a : Landing} (h : w.descend free held q = some a) :
    Descends w a := by
  fun_induction descend free held q w generalizing a with
  | case1 => cases h
  | case2 => cases h
  | case3 held q w ha hl free v hs ih =>
    obtain ⟨b, hb, rfl⟩ := Option.map_eq_some_iff.mp h
    exact (ih hb).via
  | case4 held q w ha hl free o hs =>
    cases h
    refine ⟨?_, ?_, ?_, ?_, fun c => ?_, fun hf => ?_⟩
    · exact (loggers_deliver _ _ _).trans (loggers_opened w q)
    · exact (hooks_deliver _ _ _).trans (hooks_opened w q)
    · exact (inHook_deliver _ _ _).trans (inHook_opened w q)
    · exact (journal_deliver _ _ _).trans (journal_opened w q)
    · rw [Landing.readers_ofDelivery, ← get_clocks_opened w q c]
      exact congrArg (·.get c) (clocks_deliver _ _ _)
    · exact absurd hf (Landing.fate_ofDelivery_ne _ _)
  | case5 free held q w ha =>
    cases h
    exact ⟨rfl, rfl, rfl, rfl, fun _ => rfl, fun _ => rfl⟩

end State

end LineLogger
