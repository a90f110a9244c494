import LineLogger.Proofs.Reach
import LineLogger.Proofs.Streams

namespace LineLogger

namespace State

def deliverAll (w : State) (o : Outlet) (bs : List Bytes) : State :=
  bs.foldl (fun w b => (w.deliver o b).1) w

/-- Whatever has been delivered to an outlet, the next delivery does not fail. -/
def NeverFails (w : State) (o : Outlet) : Prop := ∀ bs b, ((w.deliverAll o bs).deliver o b).2 = none

/-- The sink of a logger takes every line. It is an outlet that never fails, or a writer; the calls
that it makes return, and none of them comes back to the logger itself. -/
inductive TakesLines (w : State) (l : LoggerId) : Prop
  | outlet (o : Outlet) (hs : (w.logger l).sink = .outlet o) (hn : w.NeverFails o)
  | writer (v : Writer) (hs : (w.logger l).sink = .writer v) (hn : ¬w.Reaches v.logger l)
      (hw : w.Sound) (ho : w.HooksOnlyLog) (ha : w.HooksAvoidCallers)

/-- The line of a call goes to the sink of its logger. A writer logs it and takes all of it. What an
outlet does not take is lost, and that is counted and told to the hook. -/
def Sends (w : State) (f : OnFailure) (held : List LoggerId) (q : Call) (r : Option State) : Prop :=
  match (w.logger q.logger).sink with
  | .writer v =>
    r = ((w.opened q).submitCall f (w.loggers.size - 1) (q.logger :: held) (w.handedOn q v)).map
      (·.count q.logger .written)
  | .outlet o =>
    match (w.opened q).deliver o (w.lineOf q) with
    | (u, none) => r = some (u.count q.logger .written)
    | (u, some e) => r = f held q.logger e (u.afterLoss q.logger e)

def afterFilter (w : State) (l : LoggerId) : State := (w.note (.reached l)).count l .filtered

/-- A run of calls and the lines that it sends, each with the command that it comes from. -/
inductive Logged : State → List Command → List (Command × Bytes) → State → Prop
  | nil (w) : Logged w [] [] w
  | sent {w u x c q cs ls} (hq : c.call? = some q) (hp : w.perform c = some (u, c.reply))
      (hs : w.Sends (onFailure 1) [] q (some u)) (h : Logged u cs ls x) :
      Logged w (c :: cs) ((c, w.lineOf q) :: ls) x
  | filtered {w x c q cs ls} (hq : c.call? = some q)
      (hp : w.perform c = some (w.afterFilter q.logger, c.reply))
      (h : Logged (w.afterFilter q.logger) cs ls x) : Logged w (c :: cs) ls x

def sent? (w : State) (c : Command) : Option (Command × Bytes) :=
  (c.call?.filter w.admits).map fun q => (c, w.lineOf q)

variable {w u x : State} {c : Command} {q : Call} {l : LoggerId} {o : Outlet} {bs : List Bytes}
  {cs : List Command} {p : Option (Command × Bytes)} {ls : List (Command × Bytes)}
  {now : Time.Instant} {R : Set LoggerId} {depth free : Nat} {held : List LoggerId}

theorem Logged.performAll (h : Logged w cs ls u) :
    w.performAll cs = some (u, cs.map (·.reply)) := by
  induction h with
  | nil w => rfl
  | sent hq hp hs h ih =>
    rw [State.performAll, hp]
    dsimp only
    rw [ih]
    rfl
  | filtered hq hp h ih =>
    rw [State.performAll, hp]
    dsimp only
    rw [ih]
    rfl

theorem sends_of_admits (ha : w.admits q = true) (hl : q.logger ∉ held)
    (hz : q.logger < w.loggers.size) (f : OnFailure) :
    w.Sends f held q (w.submitCall f w.loggers.size held q) := by
  obtain ⟨n, hn⟩ := Nat.exists_eq_add_one_of_ne_zero (Nat.ne_zero_of_lt hz)
  rw [Sends, hn, submitCall_succ ha hl]
  cases (w.logger q.logger).sink with
  | writer v => rfl
  | outlet o =>
    dsimp only
    rcases (w.opened q).deliver o (w.lineOf q) with ⟨u, _ | e⟩ <;> rfl

theorem deliverAll_congr (h : u.outlets = w.outlets) (bs : List Bytes) :
    (u.deliverAll o bs).outlets = (w.deliverAll o bs).outlets := by
  induction bs generalizing u w with
  | nil => exact h
  | cons b bs ih => exact ih (deliver_congr o b h).2

theorem deliverAll_append (w : State) (o : Outlet) (bs ds : List Bytes) :
    w.deliverAll o (bs ++ ds) = (w.deliverAll o bs).deliverAll o ds := List.foldl_append

theorem deliverAll_singleton (w : State) (o : Outlet) (b : Bytes) :
    w.deliverAll o [b] = (w.deliver o b).1 := rfl

theorem NeverFails.of_outlets (h : w.NeverFails o) (hu : u.outlets = (w.deliverAll o bs).outlets) :
    u.NeverFails o := by
  intro ds b
  have hd := deliverAll_congr (o := o) hu ds
  rw [← deliverAll_append] at hd
  exact (deliver_congr o b hd).1.trans (h (bs ++ ds) b)

theorem TakesLines.of_sameWiring (h : w.TakesLines l) (hx : SameWiring w u)
    (ho : ∀ o, (w.logger l).sink = .outlet o → ∃ bs, u.outlets = (w.deliverAll o bs).outlets) :
    u.TakesLines l := by
  cases h with
  | outlet o hs hn =>
    obtain ⟨bs, hb⟩ := ho o hs
    exact .outlet o ((hx.sink l).trans hs) (hn.of_outlets hb)
  | writer v hs hn hw hh ha =>
    refine .writer v ((hx.sink l).trans hs) ?_ (hx.sound hw) (fun h => hx.hooks ▸ hh h) ?_
    · rwa [Reaches, hx.handsOn, hx.involves]
    · rwa [HooksAvoidCallers, hx.handsOn, hx.involves]

/-- What a call on a logger whose sink takes every line comes to: the line that it sends, if it
sends one. -/
structure Steps (l : LoggerId) (w : State) (c : Command) (u : State)
    (p : Option (Command × Bytes)) : Prop where
  perform : w.perform c = some (u, c.reply)
  logged : ∀ cs ls x, Logged u cs ls x → Logged w (c :: cs) (p.toList ++ ls) x
  logger : u.logger l = (w.logger l).count (if p.isSome then .written else .filtered)
  confined : Confined Set.univ w u
  outlets : ∀ o, (w.logger l).sink = .outlet o →
    u.outlets = (w.deliverAll o (p.toList.map (·.2))).outlets

theorem exec_of_filtered (hq : c.call? = some q) (ha : w.admits q = false) (f : OnFailure)
    (held : List LoggerId) : w.exec f held c = some (w.afterFilter q.logger, c.reply) := by
  rw [exec_of_call hq, submitCall_of_not_admits ha]
  rfl

theorem steps_filtered (hq : c.call? = some q) (ha : w.admits q = false) :
    Steps q.logger w c (w.afterFilter q.logger) none := by
  have hp : w.perform c = some (w.afterFilter q.logger, c.reply) := exec_of_filtered hq ha _ []
  exact {
    perform := hp
    logged := fun cs ls x h => .filtered hq hp h
    logger := by
      rw [afterFilter, logger_count, if_pos rfl]
      rfl
    confined := (Confined.note _ w _).trans (.count (Set.mem_univ _) _ _)
    outlets := fun o _ => rfl }

theorem perform_of_submitCall (hq : c.call? = some q)
    (h : w.submitCall (onFailure 1) w.loggers.size [] q = some u) :
    w.perform c = some (u, c.reply) := by
  rw [perform, exec_of_call hq, h]
  rfl

theorem steps_sent (hq : c.call? = some q) (ha : w.admits q = true)
    (hz : q.logger < w.loggers.size)
    (h : w.submitCall (onFailure 1) w.loggers.size [] q = some u)
    (hg : u.logger q.logger = (w.logger q.logger).count .written) (hc : Confined Set.univ w u)
    (ho : ∀ o, (w.logger q.logger).sink = .outlet o →
      u.outlets = (w.deliver o (w.lineOf q)).1.outlets) :
    Steps q.logger w c u (some (c, w.lineOf q)) where
  perform := perform_of_submitCall hq h
  logged cs ls x hx := by
    have hs := sends_of_admits ha List.not_mem_nil hz (onFailure 1)
    rw [h] at hs
    exact .sent hq (perform_of_submitCall hq h) hs hx
  logger := hg
  confined := hc
  outlets o hs := by
    simp only [Option.toList_some, List.map_singleton, deliverAll_singleton]
    exact ho o hs

theorem outlets_count (w : State) (l : LoggerId) (d : Counter) :
    (w.count l d).outlets = w.outlets := rfl

theorem steps_of_outlet (hq : c.call? = some q) (ha : w.admits q = true)
    (hz : q.logger < w.loggers.size) (hs : (w.logger q.logger).sink = .outlet o)
    (hn : w.NeverFails o) : ∃ u, Steps q.logger w c u (some (c, w.lineOf q)) := by
  obtain ⟨hd, ho⟩ := deliver_congr o (w.lineOf q) (outlets_opened w q)
  have hd' : ((w.opened q).deliver o (w.lineOf q)).2 = none := hd.trans (hn [] (w.lineOf q))
  have hx := submitCall_delivered (f := onFailure 1) ha List.not_mem_nil (Nat.zero_lt_of_lt hz) hs
    hd'
  refine ⟨_, steps_sent hq ha hz hx ?_ ?_ ?_⟩
  · rw [logger_count, if_pos rfl, logger_deliver, logger_opened]
  · have hs' : ((w.opened q).logger q.logger).sink = .outlet o := by rwa [logger_opened]
    exact ((Confined.opened (Set.mem_univ _) w).trans (.deliver (Set.mem_univ _) hs' _)).trans
      (.count (Set.mem_univ _) _ _)
  · intro p hp
    cases hs.symm.trans hp
    rw [outlets_count]
    exact ho

theorem steps_of_writer {v : Writer} (hq : c.call? = some q) (ha : w.admits q = true)
    (hz : q.logger < w.loggers.size) (hs : (w.logger q.logger).sink = .writer v)
    (hn : ¬w.Reaches v.logger q.logger) (hw : w.Sound) (ho : w.HooksOnlyLog)
    (hh : w.HooksAvoidCallers) : ∃ u, Steps q.logger w c u (some (c, w.lineOf q)) := by
  have hc := subject?_of_call hq
  obtain ⟨⟨u, r⟩, hu⟩ := perform_returns hw ho hh hc hz
  have hx := confined_exec (keeps_onFailure .univ 1) (closed_univ ho) hc (Set.mem_univ _) hu
  rw [perform, exec_of_call hq] at hu
  obtain ⟨y, hy, he⟩ := Option.map_eq_some_iff.mp hu
  cases he
  refine ⟨u, steps_sent hq ha hz hy ?_ hx fun o hp => ?_⟩
  · -- The loggers behind the writer do their work, and this one is none of them.
    obtain ⟨n, hn'⟩ := Nat.exists_eq_add_one_of_ne_zero (Nat.ne_zero_of_lt hz)
    rw [hn', submitCall_succ ha List.not_mem_nil, hs] at hy
    obtain ⟨x, hx', rfl⟩ := Option.map_eq_some_iff.mp hy
    have hR := (closed_reaches ho v.logger).of_confined (Confined.opened (Set.mem_univ q.logger) w)
    have hm : (w.handedOn q v).logger ∈ {k | w.Reaches v.logger k} := .refl
    have hl := (confined_submitCall (keeps_onFailure _ 1) hR hm hx').loggers q.logger hn
    rw [logger_count, if_pos rfl, hl, logger_opened]
  · cases hs.symm.trans hp

theorem sent?_of_call (hq : c.call? = some q) (w : State) :
    w.sent? c = if w.admits q then some (c, w.lineOf q) else none := by
  rw [sent?, hq, Option.filter_some]
  split <;> rfl

theorem TakesLines.steps (hw : w.TakesLines l) (hl : l < w.loggers.size) (hq : c.call? = some q)
    (hk : q.logger = l) : ∃ u, Steps l w c u (w.sent? c) := by
  subst hk
  rw [sent?_of_call hq]
  cases ha : w.admits q with
  | false => exact ⟨_, steps_filtered hq ha⟩
  | true =>
    cases hw with
    | outlet o hs hn => exact steps_of_outlet hq ha hl hs hn
    | writer v hs hn hw ho hh => exact steps_of_writer hq ha hl hs hn hw ho hh

theorem Steps.takes (h : Steps l w c u p) (hw : w.TakesLines l) :
    u.TakesLines l :=
  hw.of_sameWiring h.confined.sameWiring fun o ho => ⟨_, h.outlets o ho⟩

theorem Steps.tally (h : Steps l w c u p) (d : Counter) : u.tally l d =
    w.tally l d + if (if p.isSome then .written else .filtered) = d then 1 else 0 := by
  rw [State.tally, h.logger, Logger.count, Metrics.count_record, State.tally]
  generalize (if p.isSome then Counter.written else .filtered) = e
  by_cases he : e = d <;> simp [he]

/-- What a run of calls on one logger comes to if its sink takes every line. -/
structure Yields (l : LoggerId) (w : State) (cs : List Command) (u : State)
    (ls : List (Command × Bytes)) : Prop where
  replies : w.performAll cs = some (u, cs.map (·.reply))
  logged : Logged w cs ls u
  outlets : ∀ o, (w.logger l).sink = .outlet o →
    u.outlets = (w.deliverAll o (ls.map (·.2))).outlets
  written : u.tally l .written = w.tally l .written + .ofNat ls.length
  calls : u.tally l .written + u.tally l .filtered =
    w.tally l .written + w.tally l .filtered + .ofNat cs.length

theorem Yields.nil (l : LoggerId) (w : State) : Yields l w [] w [] where
  replies := rfl
  logged := .nil w
  outlets _ _ := rfl
  written := (UInt64.add_zero _).symm
  calls := (UInt64.add_zero _).symm

theorem Yields.cons (h : Steps l w c u p) (hx : Yields l u cs x ls) :
    Yields l w (c :: cs) x (p.toList ++ ls) where
  replies := (h.logged cs ls x hx.logged).performAll
  logged := h.logged cs ls x hx.logged
  outlets o ho := by
    rw [hx.outlets o ((h.confined.sink l).trans ho), deliverAll_congr (h.outlets o ho),
      ← deliverAll_append, List.map_append]
  written := by
    rw [hx.written, h.tally, UInt64.add_assoc, List.length_append, UInt64.ofNat_add]
    cases p <;> rfl
  calls := by
    rw [hx.calls, h.tally, h.tally, List.length_cons, UInt64.ofNat_add]
    cases p with
    | none =>
      change w.tally l .written + 0 + (w.tally l .filtered + 1) + _ = _ + (_ + 1)
      rw [UInt64.add_zero]
      ac_rfl
    | some p =>
      change w.tally l .written + 1 + (w.tally l .filtered + 0) + _ = _ + (_ + 1)
      rw [UInt64.add_zero]
      ac_rfl

def ReadsFixed (w : State) (l : LoggerId) (now : Time.Instant) : Prop :=
  ∀ n, (w.clocks.get (w.logger l).clock).reading n = now

theorem ReadsFixed.of_confined (hr : w.ReadsFixed l now) (h : Confined R w u) :
    u.ReadsFixed l now := by
  intro n
  obtain ⟨m, hm⟩ := h.ticks (w.logger l).clock
  rw [h.clock, hm]
  exact hr n

end State

end LineLogger
