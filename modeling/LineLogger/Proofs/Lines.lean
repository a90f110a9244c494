import LineLogger.Proofs.Conservation
import LineLogger.Proofs.StampOrder
import LineLogger.Proofs.Threads

namespace LineLogger

/-- A line as a logger makes it, with what it is made from. -/
structure Line where
  logger : LoggerId
  format : Time.Format
  clock : ClockId
  now : Time.Instant
  message : String

namespace Line

def stamp (x : Line) : String := x.format.render x.now

def bytes (x : Line) : Bytes := Layout.bytes x.stamp x.message

/-- The stamps are in order and tell the milliseconds apart. -/
def InOrder (x y : Line) : Prop :=
  x.stamp ≤ y.stamp ∧ (x.stamp = y.stamp ↔ x.now.SameMilli y.now)

/-- Whether a line has a stamp that sorts: of the default format, with a regular instant at the
given offset. -/
structure Sorts (o : Int) (x : Line) : Prop where
  format : x.format = {}
  regular : x.now.IsRegular
  offset : x.now.offset = o

theorem Sorts.inOrder {o : Int} {x y : Line} (hx : x.Sorts o) (hy : y.Sorts o)
    (h : x.now.NotAfter y.now) : x.InOrder y := by
  rw [InOrder, stamp, stamp, hx.format, hy.format]
  exact Time.render_le hx.regular hy.regular (hx.offset.trans hy.offset.symm) h

def ofClock (k : ClockId) (xs : List Line) : List Line := xs.filter (·.clock = k)

theorem ofClock_append (k : ClockId) (xs ys : List Line) :
    ofClock k (xs ++ ys) = ofClock k xs ++ ofClock k ys := List.filter_append ..

end Line

namespace Time.Clock

def next (c : Clock) (n : Nat) : List Instant := (List.range' c.taken n).map c.reading

theorem next_add (c : Clock) (m n : Nat) : c.next (m + n) = c.next m ++ (c.ticked m).next n := by
  rw [next, ← List.range'_append_1, List.map_append]
  rfl

/-- No reading to come lies before an earlier one. -/
def IsForward (c : Clock) : Prop :=
  ∀ m n, c.taken ≤ m → m ≤ n → (c.reading m).NotAfter (c.reading n)

theorem IsForward.pairwise_next {c : Clock} (h : c.IsForward) (n : Nat) :
    (c.next n).Pairwise Instant.NotAfter := by
  rw [next, List.pairwise_map]
  have hp : (List.range' c.taken n).Pairwise (· < ·) := List.pairwise_lt_range'
  apply hp.imp_of_mem
  intro i j hi _ hij
  exact h i j (List.mem_range'_1.mp hi).1 hij.le

end Time.Clock

def Record.maker? : Record → Option LoggerId
  | .call _ .filtered => none
  | .call l .written => some l
  | .call l (.lost _) => some l
  | .flush .. => none
  | .anew _ => none

namespace State

def lineMade (w : State) (q : Call) : Line :=
  let g := w.logger q.logger
  { logger := q.logger
    format := g.timeFormat
    clock := g.clock
    now := (w.clocks.get g.clock).now
    message := tag q.label q.message.content }

/-- The lines that are made on the way of a call. -/
def descentLines (free : Nat) (held : List LoggerId) (q : Call) (w : State) : Option (List Line) :=
  if w.admits q then
    if q.logger ∈ held then none
    else
      match free with
      | 0 => none
      | free + 1 =>
        match (w.logger q.logger).sink with
        | .writer v =>
          (descentLines free (q.logger :: held) (w.handedOn q v) (w.opened q)).map
            (w.lineMade q :: ·)
        | .outlet _ => some [w.lineMade q]
  else some []

def ownLines (held : List LoggerId) (c : Command) (w : State) : List Line :=
  (c.call?.bind (w.descentLines w.loggers.size held)).getD []

end State

namespace Moment

def lines (m : Moment) : List Line := m.state.ownLines m.held m.command

/-- What is offered to the outlet where a line gets to is the last line that its call made. -/
def Offers (m : Moment) : Prop :=
  ∀ q a, m.command.call? = some q → m.state.descend m.state.loggers.size m.held q = some a →
    a.fate ≠ .filtered → ∃ xs x o, m.lines = xs ++ [x] ∧ x.logger = a.logger ∧
      (m.state.logger a.logger).sink = .outlet o ∧
        a.fate = .ofFailure (m.state.deliver o x.bytes).2 ∧
          a.state.outlets = (m.state.deliver o x.bytes).1.outlets

end Moment

namespace State

def runLines (ss : List Step) (w : State) : List Line := (w.moments ss).flatMap (·.lines)

variable {w u v : State} {a : Landing} {q : Call} {c : Command} {r : Reply} {ss : List Step}
  {xs ys : List Line} {rs ts : List Record} {free : Nat} {held : List LoggerId} {l : LoggerId}

/-- Every reading that a clock gives is in one line, the lines have the readings in their order, and
a line is made for each recorded call that is not filtered. -/
structure Stamps (w u : State) (xs : List Line) (rs : List Record) : Prop where
  clocks : ∀ k, u.clocks.get k = (w.clocks.get k).ticked (Line.ofClock k xs).length
  readings : ∀ k, (Line.ofClock k xs).map (·.now) =
    (w.clocks.get k).next (Line.ofClock k xs).length
  makers : xs.map (·.logger) = rs.filterMap (·.maker?)

theorem Stamps.of_eq (h : u.clocks = w.clocks) (hr : rs.filterMap (·.maker?) = []) :
    Stamps w u [] rs where
  clocks k := congrArg (·.get k) h
  readings _ := rfl
  makers := hr.symm

theorem Stamps.refl (w : State) : Stamps w w [] [] := .of_eq rfl rfl

theorem Stamps.trans (h : Stamps w u xs rs) (h' : Stamps u v ys ts) :
    Stamps w v (xs ++ ys) (rs ++ ts) where
  clocks k := by
    rw [h'.clocks, h.clocks, Time.Clock.ticked_ticked, Line.ofClock_append, List.length_append]
  readings k := by
    rw [Line.ofClock_append, List.map_append, h.readings, h'.readings, h.clocks,
      List.length_append, Time.Clock.next_add]
  makers := by rw [List.map_append, List.filterMap_append, h.makers, h'.makers]

theorem Stamps.of_clocks (h : Stamps w u xs rs) (hu : v.clocks = u.clocks) : Stamps w v xs rs where
  clocks k := (congrArg (·.get k) hu).trans (h.clocks k)
  readings := h.readings
  makers := h.makers

theorem stamps_opened (w : State) (q : Call) {x : Fate} (hx : x ≠ .filtered) :
    Stamps w (w.opened q) [w.lineMade q] [.call q.logger x] where
  clocks k := by
    rw [clocks_opened, Store.get_modify]
    by_cases hk : k = (w.logger q.logger).clock
    · simp [Line.ofClock, lineMade, hk, Time.Clock.ticked_one]
    · simp [Line.ofClock, lineMade, hk, Ne.symm hk, Time.Clock.ticked_zero]
  readings k := by
    by_cases hk : (w.logger q.logger).clock = k
    · subst hk
      simp [Line.ofClock, lineMade, Time.Clock.next, Time.Clock.now]
    · simp [Line.ofClock, lineMade, hk, Time.Clock.next]
  makers := by
    cases x with
    | filtered => exact absurd rfl hx
    | written => rfl
    | lost e => rfl

theorem stamps_descend (h : w.descend free held q = some a) :
    ∃ xs, w.descentLines free held q = some xs ∧ Stamps w a.state xs a.records := by
  fun_induction descend free held q w generalizing a with
  | case1 => cases h
  | case2 => cases h
  | case3 held q w ha hl free v hs ih =>
    obtain ⟨b, hb, rfl⟩ := Option.map_eq_some_iff.mp h
    obtain ⟨xs, hx, hi⟩ := ih hb
    refine ⟨w.lineMade q :: xs, ?_, ?_⟩
    · rw [descentLines, if_pos ha, if_neg hl, hs]
      exact congrArg (Option.map _) hx
    · rw [Landing.records_via]
      exact (stamps_opened w q Fate.noConfusion).trans hi
  | case4 held q w ha hl free o hs =>
    cases h
    refine ⟨[w.lineMade q], ?_, ?_⟩
    · rw [descentLines, if_pos ha, if_neg hl, hs]
    · have hf := Landing.fate_ofDelivery_ne q.logger ((w.opened q).deliver o (w.lineOf q))
      exact (stamps_opened w q hf).of_clocks (clocks_deliver _ _ _)
  | case5 free held q w ha =>
    cases h
    refine ⟨[], ?_, .of_eq rfl rfl⟩
    cases free <;> simp [descentLines, ha]

theorem outlets_of_descend (h : w.descend free held q = some a) (hf : a.fate ≠ .filtered) :
    ∃ xs x o, w.descentLines free held q = some (xs ++ [x]) ∧ x.logger = a.logger ∧
      (w.logger a.logger).sink = .outlet o ∧ a.fate = .ofFailure (w.deliver o x.bytes).2 ∧
        a.state.outlets = (w.deliver o x.bytes).1.outlets := by
  fun_induction descend free held q w generalizing a with
  | case1 => cases h
  | case2 => cases h
  | case3 held q w ha hl free v hs ih =>
    obtain ⟨b, hb, rfl⟩ := Option.map_eq_some_iff.mp h
    obtain ⟨xs, x, o, hx, hm, hk, hd, ho⟩ := ih hb hf
    -- The outlets are those of the start: on the way only clocks and the journal have moved.
    have hc := deliver_congr o x.bytes (outlets_opened w q)
    refine ⟨w.lineMade q :: xs, x, o, ?_, hm, ?_, ?_, ho.trans hc.2⟩
    · rw [descentLines, if_pos ha, if_neg hl, hs]
      exact congrArg (Option.map _) hx
    · exact (congrArg Logger.sink (logger_opened w b.logger q)).symm.trans hk
    · exact hd.trans (congrArg Fate.ofFailure hc.1)
  | case4 held q w ha hl free o hs =>
    cases h
    have hc := deliver_congr o (w.lineOf q) (outlets_opened w q)
    refine ⟨[], w.lineMade q, o, ?_, rfl, hs, congrArg Fate.ofFailure hc.1, hc.2⟩
    rw [descentLines, if_pos ha, if_neg hl, hs]
    rfl
  | case5 =>
    cases h
    exact absurd rfl hf

theorem Landing.clocks_ended (a : Landing) : a.ended.clocks = a.state.clocks := by
  rw [Landing.ended]
  cases a.fate <;> rfl

theorem clocks_countAll (w : State) (ls : List LoggerId) (d : Counter) :
    (w.countAll ls d).clocks = w.clocks := countAll_frame (fun _ _ => rfl) w ls

theorem clocks_flush {x : Option IoError} (h : w.flush free held l = some (u, x)) :
    u.clocks = w.clocks :=
  flush_frame (f := clocks) (fun _ _ => rfl) (fun _ _ => rfl) (fun _ o => by cases o <;> rfl) h

theorem clocks_of_no_call {f : OnFailure} (hc : c.call? = none)
    (h : w.exec f held c = some (u, r)) : u.clocks = w.clocks :=
  rel_of_no_call (P := fun w u => u.clocks = w.clocks) (fun _ => rfl) (fun h h' => h'.trans h)
    (fun _ _ _ => rfl) (fun _ _ _ => rfl) (fun _ _ => rfl) hc h

theorem makers_of_no_call (hc : c.call? = none) (held : List LoggerId) (w : State) :
    (w.ownRecords held c).filterMap (·.maker?) = [] := by
  have hf : ((c.flushed?.map (w.flushRecords w.loggers.size)).getD []).filterMap (·.maker?) =
      [] := by
    cases c.flushed? with
    | none => rfl
    | some l =>
      refine List.filterMap_eq_nil_iff.mpr fun x hx => ?_
      obtain ⟨m, y, rfl⟩ := flushRecords_flush hx
      rfl
  cases c with
  | resetMetrics l => rfl
  | _ =>
    simp only [ownRecords, hc]
    exact hf

theorem ownLines_of_call (hq : c.call? = some q)
    (hx : w.descentLines w.loggers.size held q = some xs) : w.ownLines held c = xs := by
  rw [ownLines, hq, Option.bind_some, hx]
  rfl

theorem offers (m : Moment) : m.Offers := by
  intro q a hq ha hf
  obtain ⟨xs, x, o, hx, h⟩ := outlets_of_descend ha hf
  exact ⟨xs, x, o, ownLines_of_call hq hx, h⟩

theorem stamps_of_no_call {f : OnFailure} (hc : c.call? = none)
    (h : w.exec f held c = some (u, r)) : Stamps w u (w.ownLines held c) (w.ownRecords held c) := by
  have hl : w.ownLines held c = [] := by
    rw [ownLines, hc]
    rfl
  rw [hl]
  exact .of_eq (clocks_of_no_call hc h) (makers_of_no_call hc held w)

theorem stamps_of_call (hc : c.call? = some q)
    (h : w.descend w.loggers.size held q = some a) :
    Stamps w a.ended (w.ownLines held c) (w.ownRecords held c) := by
  obtain ⟨xs, hx, hd⟩ := stamps_descend h
  rw [ownLines_of_call hc hx, ownRecords_of_call hc h]
  exact hd.of_clocks (Landing.clocks_ended a)

/-- Neither hooks nor the way back of a line concern any clock. -/
theorem tracks_stamps :
    Tracks fun w u ms => Stamps w u (ms.flatMap Moment.lines) (ms.flatMap Moment.records) where
  refl := .refl
  trans h h' := by
    rw [List.flatMap_append, List.flatMap_append]
    exact h.trans h'
  call hc ha := by
    rw [List.flatMap_singleton, List.flatMap_singleton]
    exact stamps_of_call hc ha
  plain hc h := by
    rw [List.flatMap_singleton, List.flatMap_singleton]
    exact stamps_of_no_call hc h
  back w ls := .of_eq (clocks_countAll w ls .written) rfl
  enter w l h e := .of_eq rfl rfl
  leave w l := .of_eq rfl rfl
  create w b := .of_eq rfl rfl

theorem makers_ledger (ss : List Step) (w : State) : (w.ledger ss).filterMap (·.maker?) =
    ((w.moments ss).flatMap (·.records)).filterMap (·.maker?) := by
  induction ss generalizing w with
  | nil => rfl
  | cons s ss ih =>
    have hs : (w.stepRecords s).filterMap (·.maker?) =
        ((w.stepMoments s).flatMap (·.records)).filterMap (·.maker?) := by
      cases s <;> rfl
    rw [ledger, moments, gather, gather, List.flatMap_append, List.filterMap_append,
      List.filterMap_append, hs]
    cases w.step s with
    | none => rfl
    | some u => exact congrArg (_ ++ ·) (ih u)

theorem makers_follow (hw : w.inHook = false) (h : w.follow ss = some u) :
    (w.runLines ss).map (·.logger) = (w.ledger ss).filterMap (·.maker?) := by
  rw [makers_ledger]
  exact ((tracks_stamps.follow hw ss).2 u h).makers

theorem lines_in_order {k : ClockId} {o : Int} (h : Stamps w u xs rs)
    (hk : (w.clocks.get k).IsForward) (hs : ys.Sublist xs)
    (hy : ∀ y ∈ ys, y.clock = k ∧ y.Sorts o) : ys.Pairwise Line.InOrder := by
  have hf : ys.Sublist (Line.ofClock k xs) := by
    have hl : ys.filter (·.clock = k) = ys :=
      List.filter_eq_self.mpr (fun y hm => by simpa using (hy y hm).1)
    exact hl ▸ hs.filter _
  have hp : (Line.ofClock k xs).Pairwise (fun x y => x.now.NotAfter y.now) := by
    apply List.pairwise_map.mp
    rw [h.readings]
    exact hk.pairwise_next _
  apply (hp.sublist hf).imp_of_mem
  intro x y hx hm hn
  exact (hy x hx).2.inOrder (hy y hm).2 hn

end State

namespace Concurrent.Machine

/-- The lines of calls that had the lock one after the other. -/
def turnLines (m : Machine) (ts : List Turn) : List Line :=
  ts.mapIdx fun k t =>
    { logger := defaultLogger
      format := m.logger.timeFormat
      clock := systemClock
      now := m.clock.reading (m.clock.taken + k)
      message := State.tag t.request.label t.request.message }

theorem output_eq (m : Machine) (ts : List Turn) :
    m.output ts = (m.turnLines ts).flatMap (·.bytes) := by
  rw [output, turnLines, List.flatMap_def]
  congr 1
  apply List.ext_getElem
  · simp
  · intro k hk hk'
    simp only [List.getElem_mapIdx, List.getElem_map]
    rfl

theorem Orderly.sink_prefix {m n : Machine} {h : History} (ho : Orderly m n h) :
    n.sink <+: m.sink ++ (m.turnLines h.turns).flatMap (·.bytes) := by
  rw [← output_eq, ho.sink, List.append_assoc, List.prefix_append_right_inj]
  cases ho.stage with
  | free hc hp => rw [hp, History.turns_of_none hc, List.append_nil]
  | locked c rs hc hp =>
    rw [hp, History.turns_of_some hc, output_concat, List.append_nil]
    exact List.prefix_append _ _
  | writing c rs rest hc hp =>
    rw [History.turns_of_some hc, output_concat, List.prefix_append_right_inj]
    exact ⟨rest, hp⟩

theorem turnLines_in_order {m : Machine} {ts : List Turn} {o : Int} (hk : m.clock.IsForward)
    (hx : ∀ x ∈ m.turnLines ts, x.Sorts o) : (m.turnLines ts).Pairwise Line.InOrder := by
  rw [List.pairwise_iff_getElem]
  intro i j hi hj hij
  apply (hx _ (List.getElem_mem hi)).inOrder (hx _ (List.getElem_mem hj))
  simp only [turnLines, List.getElem_mapIdx]
  exact hk _ _ (Nat.le_add_right _ _) (Nat.add_le_add_left hij.le _)

end Concurrent.Machine

/-- Default stamps of one offset compare as the instants do in milliseconds, so the lines of a clock
that does not go back are in order, whatever loggers, hooks or threads made them. -/
theorem default_stamps_sort_as_time :
    (∀ a b : Time.Instant, a.IsRegular → b.IsRegular → a.offset = b.offset →
      compare (({} : Time.Format).render a) (({} : Time.Format).render b) = a.compareMillis b) ∧
    (∀ (w u : State) (ss : List Step), w.inHook = false → w.follow ss = some u →
      (w.runLines ss).map (·.logger) = (w.ledger ss).filterMap (·.maker?) ∧
      (∀ m ∈ w.moments ss, m.Offers) ∧
      ∀ (k : ClockId) (o : Int) (xs : List Line), (w.clocks.get k).IsForward →
        xs.Sublist (w.runLines ss) → (∀ x ∈ xs, x.clock = k ∧ x.Sorts o) →
          xs.Pairwise Line.InOrder) ∧
    (∀ (m n : Concurrent.Machine) (s : List (Nat × Nat)), m.Fresh → m.run? s = some n →
      ∃ ts, n.sink <+: m.sink ++ (m.turnLines ts).flatMap (·.bytes) ∧
        ∀ o, m.clock.IsForward → (∀ x ∈ m.turnLines ts, x.Sorts o) →
          (m.turnLines ts).Pairwise Line.InOrder) := by
  refine ⟨fun a b ha hb ho => Time.compare_render ha hb ho, fun w u ss hw h => ?_,
    fun m n s hf hs => ?_⟩
  · have hs := (State.tracks_stamps.follow hw ss).2 u h
    exact ⟨State.makers_follow hw h, fun m _ => State.offers m,
      fun k o xs hk hx hy => State.lines_in_order hs hk hx hy⟩
  · obtain ⟨h, ho, -⟩ := Concurrent.Machine.orderly_run hf.orderly hf.tallied hs
    exact ⟨h.turns, ho.sink_prefix, fun o hk hx => Concurrent.Machine.turnLines_in_order hk hx⟩

/-- A clock that shows the leap second at the end of 2016, and then stays at the next second. -/
def midnightClock : Time.Clock where
  reading n := if n = 0 then ⟨1483228799, 1500000000, 0⟩ else ⟨1483228800, 0, 0⟩

def midnight : List Step := [.command (.info 0 "old"), .command (.info 0 "new")]

def midnightLines : List Line :=
  [⟨0, {}, 0, ⟨1483228799, 1500000000, 0⟩, "INF old"⟩, ⟨0, {}, 0, ⟨1483228800, 0, 0⟩, "INF new"⟩]

def crowd : Concurrent.Machine :=
  { logger := {}
    clock := .fixed ⟨1483228800, 0, 0⟩
    threads := List.replicate 3 ⟨[⟨0, none, "x"⟩], .idle⟩ }

theorem midnight_stamps_sort :
    compare (({} : Time.Format).render ⟨1483228799, 1500000000, 0⟩)
      (({} : Time.Format).render ⟨1483228800, 0, 0⟩) = .lt ∧
    midnightLines.Pairwise Line.InOrder ∧
    ∃ n ts, crowd.run? [(1, 0), (1, 0), (1, 0), (1, 9)] = some n ∧
      n.sink <+: (crowd.turnLines ts).flatMap (·.bytes) ∧
        (crowd.turnLines ts).Pairwise Line.InOrder := by
  obtain ⟨hc, hr, hm⟩ := default_stamps_sort_as_time
  have ho : (⟨1483228799, 1500000000, 0⟩ : Time.Instant).IsRegular := by constructor <;> decide
  have hn : (⟨1483228800, 0, 0⟩ : Time.Instant).IsRegular := by constructor <;> decide
  refine ⟨hc _ _ ho hn rfl, ?_, ?_⟩
  · obtain ⟨u, hu⟩ : ∃ u, (State.initial midnightClock).follow midnight = some u :=
      Option.isSome_iff_exists.mp (by cbv)
    have hl : (State.initial midnightClock).runLines midnight = midnightLines := by cbv
    have hk : midnightClock.IsForward := by
      intro m n _ hm
      simp only [midnightClock, Time.Instant.NotAfter]
      split_ifs <;> simp_all
    apply (hr _ u midnight rfl hu).2.2 0 0 midnightLines hk (by rw [hl])
    exact List.forall_mem_cons.mpr
      ⟨⟨rfl, rfl, ho, rfl⟩, List.forall_mem_singleton.mpr ⟨rfl, rfl, hn, rfl⟩⟩
  · obtain ⟨n, hn'⟩ : ∃ n, crowd.run? [(1, 0), (1, 0), (1, 0), (1, 9)] = some n :=
      Option.isSome_iff_exists.mp (by cbv)
    obtain ⟨ts, hp, ht⟩ := hm crowd n _ ⟨rfl, by simp [crowd]⟩ hn'
    refine ⟨n, ts, hn', hp, ht 0 (fun _ _ _ _ => .inr ⟨rfl, le_rfl⟩) fun x hx => ?_⟩
    obtain ⟨k, hk, rfl⟩ := List.mem_mapIdx.mp hx
    exact ⟨rfl, hn, rfl⟩

end LineLogger
