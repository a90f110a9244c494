import LineLogger.Proofs.Descent
import LineLogger.Proofs.History

namespace LineLogger

/-- Outlets that take everything. -/
def Outlet.isSteady : Outlet → Bool
  | .device _ => false
  | .standardError => true
  | .buffer _ => true
  | .file _ => true

def Sink.isSteady : Sink → Bool
  | .outlet o => o.isSteady
  | .writer _ => false

def Command.isSteady : Command → Bool
  | .set _ (.sink s) => s.isSteady
  | .writeOnce (.outlet o) _ => o.isSteady
  | .write (.outlet o) _ => o.isSteady
  | .flushSink (.outlet o) => o.isSteady
  | _ => true

def Setup.Steady (s : Setup) : Prop := ∀ l, (s.settings l).sink.isSteady = true

namespace Setup

theorem steady_after {s : Setup} {c : Command} (h : s.Steady) (hc : c.isSteady = true) :
    (s.after c).Steady := by
  intro j
  cases c with
  | set m x =>
    change (if j = m then (s.settings j).set x else s.settings j).sink.isSteady = true
    split
    · cases x with
      | sink k => exact hc
      | _ => exact h j
    · exact h j
  | _ =>
    rw [settings_after s (by simp)]
    exact h j

end Setup

namespace State

def setup (w : State) : Setup := ⟨fun l => (w.logger l).settings, w.clocks.get⟩

variable {w u : State} {c : Command} {q : Call} {o : Outlet}

theorem setup_congr (hl : ∀ k, (u.logger k).settings = (w.logger k).settings)
    (hc : u.clocks = w.clocks) : u.setup = w.setup := by
  apply Setup.ext
  · funext k
    exact hl k
  · exact congrArg Store.get hc

theorem settings_count (w : State) (l k : LoggerId) (d : Counter) :
    ((w.count l d).logger k).settings = (w.logger k).settings := by
  rw [logger_count]
  split <;> rfl

theorem setup_opened (w : State) (q : Call) : (w.opened q).setup = w.setup.ticked q.logger := by
  apply Setup.ext
  · funext k
    exact congrArg Logger.settings (logger_opened w k q)
  · funext k
    rw [setup, clocks_opened]
    exact Store.get_modify _ _ _ _

theorem sink_steady (h : w.setup.Steady) (l : LoggerId) :
    ∃ o, (w.logger l).sink = .outlet o ∧ o.isSteady = true := by
  have hs : (w.logger l).sink.isSteady = true := h l
  cases hk : (w.logger l).sink with
  | outlet o => exact ⟨o, rfl, by rw [hk] at hs; exact hs⟩
  | writer v =>
    rw [hk] at hs
    cases hs

theorem deliver_steady (h : o.isSteady = true) (w : State) (b : Bytes) :
    (w.deliver o b).2 = none := by
  cases o with
  | device i => cases h
  | _ => rfl

theorem offer_steady (h : o.isSteady = true) (w : State) (b : Bytes) :
    w.offer o b = ((w.deliver o b).1, .ok b.length) := by
  cases o with
  | device i => cases h
  | _ => rfl

theorem flushOutlet_steady (h : o.isSteady = true) (w : State) : w.flushOutlet o = (w, none) := by
  cases o with
  | device i => cases h
  | _ => rfl

theorem buffers_deliver (w : State) (o : Outlet) (b : Bytes) (i : BufferId) :
    (w.deliver o b).1.buffers.get i =
      w.buffers.get i ++ if Sink.outlet o = .outlet (.buffer i) then b else [] := by
  cases o with
  | buffer j =>
    change (w.buffers.modify j (· ++ b)).get i = _
    rw [Store.get_modify]
    by_cases h : i = j
    · simp [h]
    · simp [h, Ne.symm h]
  | _ => simp [deliver]

theorem buffers_deliver_line (ha : w.admits q = true)
    (hs : (w.logger q.logger).sink = .outlet o) (i : BufferId) :
    ((w.opened q).deliver o (w.lineOf q)).1.buffers.get i =
      (w.setup.line? q).toList.foldl (Entry.applied i) (w.buffers.get i) := by
  have hr : w.setup.accepts q = true := ha
  have hk : (w.setup.settings q.logger).sink = .outlet o := hs
  have hb := buffers_deliver (w.opened q) o (w.lineOf q) i
  rw [buffers_opened] at hb
  rw [Setup.line?, hr, hk]
  exact hb

theorem buffers_clear (w : State) (j i : BufferId) :
    (w.buffers.put j []).get i = (Entry.cleared j).applied i (w.buffers.get i) := by
  change _ = if decide (j = i) then [] else w.buffers.get i ++ []
  rw [Store.get_put, List.append_nil]
  by_cases h : i = j
  · simp [h]
  · simp [h, Ne.symm h]

/-- What one command does, as the setup before it tells. -/
structure Follows (w : State) (c : Command) (u : State) : Prop where
  setup : u.setup = w.setup.after c
  buffers : ∀ i, u.buffers.get i =
    (w.setup.entry? c).toList.foldl (Entry.applied i) (w.buffers.get i)
  size : u.loggers.size = w.loggers.size

theorem follows_filtered (hq : c.call? = some q) (ha : w.admits q = false) :
    Follows w c ((w.note (.reached q.logger)).count q.logger .filtered) where
  setup := by
    have hr : w.setup.accepts q = false := ha
    rw [Setup.after_of_call _ hq, hr]
    exact setup_congr (fun k => settings_count _ _ k _) rfl
  buffers i := by
    have hr : w.setup.accepts q = false := ha
    rw [Setup.entry?_of_call _ hq, Setup.line?, hr]
    rfl
  size := rfl

theorem follows_accepted (hq : c.call? = some q) (ha : w.admits q = true)
    (hk : (w.logger q.logger).sink = .outlet o) :
    Follows w c (((w.opened q).deliver o (w.lineOf q)).1.count q.logger .written) where
  setup := by
    have hr : w.setup.accepts q = true := ha
    rw [Setup.after_of_call _ hq, hr, if_pos rfl, ← setup_opened]
    apply setup_congr
    · intro k
      rw [settings_count, logger_deliver]
    · exact clocks_deliver (w.opened q) o (w.lineOf q)
  buffers i := by
    rw [Setup.entry?_of_call _ hq]
    exact buffers_deliver_line ha hk i
  size := by
    change ((w.opened q).deliver o (w.lineOf q)).1.loggers.size = _
    rw [loggers_deliver, loggers_opened]

theorem follows_call (hs : w.setup.Steady) (hz : 0 < w.loggers.size) (hq : c.call? = some q) :
    ∃ u, w.perform c = some (u, c.reply) ∧ Follows w c u := by
  rw [perform, exec_of_call hq]
  cases ha : w.admits q with
  | false =>
    rw [submitCall_of_not_admits ha]
    exact ⟨_, rfl, follows_filtered hq ha⟩
  | true =>
    obtain ⟨o, hk, ho⟩ := sink_steady hs q.logger
    have hd := deliver_steady ho (w.opened q) (w.lineOf q)
    rw [submitCall_delivered ha List.not_mem_nil hz hk hd]
    exact ⟨_, rfl, follows_accepted hq ha hk⟩

theorem settings_set (g : Logger) (x : Setting) : (g.set x).settings = g.settings.set x := by
  cases x <;> rfl

theorem follows_set (w : State) (l : LoggerId) (x : Setting) :
    Follows w (.set l x) (w.modifyLogger l (·.set x)) where
  setup := by
    apply Setup.ext
    · funext k
      have hk := logger_modifyLogger w l k (·.set x)
      change ((w.modifyLogger l (·.set x)).logger k).settings =
        if k = l then (w.logger k).settings.set x else (w.logger k).settings
      rw [hk]
      split
      · exact settings_set _ _
      · rfl
    · rfl
  buffers i := rfl
  size := rfl

theorem follows_of_no_call (hc : c.call? = none) (hx : ∀ l x, c ≠ .set l x)
    (hs : u.setup = w.setup) (hl : u.loggers.size = w.loggers.size)
    (hb : ∀ i, u.buffers.get i =
      (w.setup.entry? c).toList.foldl (Entry.applied i) (w.buffers.get i)) : Follows w c u :=
  ⟨hs.trans (Setup.after_of_no_call _ hc hx).symm, hb, hl⟩

theorem follows_deliver {b : Bytes} (hc : c.call? = none) (hx : ∀ l x, c ≠ .set l x)
    (he : w.setup.entry? c = some (.written (.outlet o) b)) : Follows w c (w.deliver o b).1 := by
  apply follows_of_no_call hc hx
  · apply setup_congr
    · intro k
      rw [logger_deliver]
    · exact clocks_deliver w o b
  · exact congrArg Store.size (loggers_deliver w o b)
  · intro i
    rw [he]
    exact buffers_deliver w o b i

theorem follows_note (e : Event) (hc : c.call? = none) (hx : ∀ l x, c ≠ .set l x)
    (he : w.setup.entry? c = none) : Follows w c (w.note e) := by
  apply follows_of_no_call hc hx
  · exact setup_congr (fun k => rfl) rfl
  · rfl
  · intro i
    rw [he]
    rfl

theorem follows_clear (w : State) (j : BufferId) :
    Follows w (.clear j) { w with buffers := w.buffers.put j [] } := by
  apply follows_of_no_call rfl (by simp)
  · exact setup_congr (fun k => rfl) rfl
  · rfl
  · exact buffers_clear w j

theorem follows_reset (w : State) (l : LoggerId) :
    Follows w (.resetMetrics l) (w.modifyLogger l (fun g => { g with metrics := {} })) := by
  apply follows_of_no_call rfl (by simp)
  · apply setup_congr
    · intro k
      rw [logger_modifyLogger]
      split <;> rfl
    · rfl
  · rfl
  · intro i
    rfl

theorem follows_refl (hc : c.call? = none) (hx : ∀ l x, c ≠ .set l x)
    (he : w.setup.entry? c = none) : Follows w c w := by
  apply follows_of_no_call hc hx rfl rfl
  intro i
  rw [he]
  rfl

theorem change_unlocked (w : State) (l : LoggerId) (x : Setting) :
    w.change [] l x = some (w.modifyLogger l (·.set x), .done) := by
  cases x <;> rfl

theorem flush_steady (hs : w.setup.Steady) (hz : 0 < w.loggers.size) (l : LoggerId) :
    w.flush w.loggers.size [] l = some (w.note (.flushed l none), none) := by
  obtain ⟨n, hn⟩ := Nat.exists_eq_add_one_of_ne_zero (Nat.ne_zero_of_lt hz)
  obtain ⟨o, hk, ho⟩ := sink_steady hs l
  rw [hn, flush, if_neg (by simp), hk]
  dsimp only
  rw [flushOutlet_steady ho]

theorem follows_perform (hs : w.setup.Steady) (hz : 0 < w.loggers.size)
    (hc : c.isSteady = true) : ∃ u r, w.perform c = some (u, r) ∧ Follows w c u := by
  cases hq : c.call? with
  | some q =>
    obtain ⟨u, hu, hf⟩ := follows_call hs hz hq
    exact ⟨u, _, hu, hf⟩
  | none =>
    cases c with
    | log l v tagged m => cases hq
    | logRaw l n tagged m =>
      obtain ⟨e, he⟩ := resolve_of_raw?_none hq
      have hr : w.setup.entry? (.logRaw l n tagged m) = none :=
        congrArg (Option.bind · w.setup.line?) hq
      refine ⟨w, .failed e, ?_, follows_refl hq (by simp) hr⟩
      simp only [perform, exec, he]
    | flush l =>
      exact ⟨_, _, congrArg (Option.map _) (flush_steady hs hz l), follows_note _ hq (by simp) rfl⟩
    | set l x => exact ⟨_, _, change_unlocked w l x, follows_set w l x⟩
    | resetMetrics l => exact ⟨_, _, rfl, follows_reset w l⟩
    | writeOnce s b =>
      cases s with
      | writer v => cases hq
      | outlet o =>
        refine ⟨_, _, writeOnce_outlet (onFailure 1) [] o b w, ?_⟩
        rw [offer_steady hc]
        exact follows_deliver hq (by simp) rfl
    | write s b =>
      cases s with
      | writer v =>
        by_cases hb : b = []
        · subst hb
          exact ⟨w, .done, rfl, follows_refl hq (by simp) rfl⟩
        · simp [Command.call?, hb] at hq
      | outlet o =>
        exact ⟨_, _, write_outlet (onFailure 1) [] o b w, follows_deliver hq (by simp) rfl⟩
    | flushSink s =>
      cases s with
      | writer v =>
        exact ⟨_, _, congrArg (Option.map _) (flush_steady hs hz v.logger),
          follows_note _ hq (by simp) rfl⟩
      | outlet o =>
        refine ⟨_, _, flushSink_outlet [] o w, ?_⟩
        rw [flushOutlet_steady hc]
        exact follows_refl hq (by simp) rfl
    | clear j => exact ⟨_, _, rfl, follows_clear w j⟩

theorem follows_performAll {cs : List Command} (hs : w.setup.Steady) (hz : 0 < w.loggers.size)
    (hc : ∀ c ∈ cs, c.isSteady = true) :
    ∃ u rs, w.performAll cs = some (u, rs) ∧ u.setup = w.setup.afterAll cs ∧
      ∀ i, u.buffers.get i = (w.setup.history cs).foldl (Entry.applied i) (w.buffers.get i) := by
  induction cs generalizing w with
  | nil => exact ⟨w, [], rfl, rfl, fun i => rfl⟩
  | cons c cs ih =>
    have hc' := hc c List.mem_cons_self
    obtain ⟨v, r, hv, hf⟩ := follows_perform hs hz hc'
    obtain ⟨u, rs, hu, he, hb⟩ := ih (hf.setup ▸ Setup.steady_after hs hc') (hf.size ▸ hz)
      (fun d hd => hc d (List.mem_cons_of_mem c hd))
    rw [hf.setup] at he hb
    refine ⟨u, r :: rs, ?_, he, fun i => ?_⟩
    · rw [performAll, hv]
      dsimp only
      rw [hu]
      rfl
    · rw [hb, hf.buffers, Setup.history, List.foldl_append]

/-- A buffer holds the direct writes and the lines of accepted calls since it was cleared last, each
with the time format and the clock of its moment. -/
theorem buffers_of_run {cs : List Command} (hs : w.setup.Steady) (hz : 0 < w.loggers.size)
    (hc : ∀ c ∈ cs, c.isSteady = true) :
    ∃ u rs, w.performAll cs = some (u, rs) ∧ u.setup = w.setup.afterAll cs ∧
      (∀ i, u.buffers.get i = contents i
        (.written (.outlet (.buffer i)) (w.buffers.get i) :: w.setup.history cs)) ∧
      ∀ before l k during rest, cs = before ++ .set l (.clock k) :: (during ++ rest) →
        let s := (w.setup.afterAll before).after (.set l (.clock k))
        w.setup.history cs =
            w.setup.history before ++ (s.history during ++ (s.afterAll during).history rest) ∧
          (s.Owns l k → (∀ c ∈ during, c.keepsClock l k) →
            ∀ i now, (s.readingsOf l during)[i]? = some now →
              now = (s.clocks k).reading ((s.clocks k).taken + i)) := by
  obtain ⟨u, rs, hu, he, hb⟩ := follows_performAll hs hz hc
  refine ⟨u, rs, hu, he, fun i => ?_, ?_⟩
  · rw [hb, contents_written]
  · rintro before l k during rest rfl s
    refine ⟨?_, fun ho hk i now hi => Setup.reading_of_owned ho hk hi⟩
    rw [Setup.history_append]
    congr 1
    exact Setup.history_append s during rest

def fewLines : List Command :=
  [.set 0 (.sink (.outlet (.buffer 0))), .set 0 (.timeFormat ⟨"%H"⟩), .info 0 "gone", .clear 0,
    .debug 0 "too fine", .write (.writer ⟨0, .warn⟩) [104, 105]]

theorem fewLines_leaves_one : ∃ u rs,
    (initial (.fixed ⟨0, 0, 0⟩)).performAll fewLines = some (u, rs) ∧
      u.buffers.get 0 = Text.Utf8.ofString "00\thi\n" := by
  have hs : (initial (.fixed ⟨0, 0, 0⟩)).setup.Steady := by
    intro l
    cases l <;> rfl
  have hc : ∀ c ∈ fewLines, c.isSteady = true := by decide
  obtain ⟨u, rs, hu, -, hb, -⟩ := buffers_of_run hs (by decide) hc
  exact ⟨u, rs, hu, (hb 0).trans (by cbv)⟩

end State

end LineLogger
