import LineLogger.Proofs.Exchange

namespace LineLogger

/-- What a program can do at a moment at which no call is under way. -/
inductive Action
  | openSink
  | create (b : Builder)
  | command (c : Command)

inductive Grant
  | sink (s : Except Error Sink)
  | logger (l : LoggerId)
  | reply (r : Reply)

namespace Action

def redirect (p : Outlet → Outlet) : Action → Action
  | .openSink => .openSink
  | .create b => .create (b.redirect p)
  | .command c => .command (c.redirect p)

def clears (i : BufferId) : Action → Bool
  | .command c => c.clears i
  | _ => false

def isSteady : Action → Bool
  | .openSink => true
  | .create b => b.build.sink.isSteady
  | .command c => c.isSteady

end Action

def Grant.redirect (p : Outlet → Outlet) : Grant → Grant
  | .sink s => .sink (s.map (·.redirect p))
  | g => g

namespace State

/-- Opens a sink on a file. A program goes on with the state that it had if that fails. -/
def appendingTo (path : String) (w : State) : State × Except Error Sink :=
  match w.openFile path with
  | .ok (w, s) => (w, .ok s)
  | .error e => (w, .error e)

def sharing (i : BufferId) (w : State) : State × Except Error Sink := (w, .ok (.outlet (.buffer i)))

def act (opening : State → State × Except Error Sink) (a : Action) (w : State) :
    Option (State × Grant) :=
  match a with
  | .openSink => some ((opening w).1, .sink (opening w).2)
  | .create b => some ({ w with loggers := w.loggers.add b.build }, .logger w.loggers.size)
  | .command c => (w.perform c).map (fun p => (p.1, .reply p.2))

def actAll (opening : State → State × Except Error Sink) :
    List Action → State → Option (State × List Grant)
  | [], w => some (w, [])
  | a :: as, w =>
    match w.act opening a with
    | none => none
    | some (w, g) => (actAll opening as w).map (fun p => (p.1, g :: p.2))

def actionMoments (a : Action) (w : State) : List Moment :=
  match a with
  | .command c => w.commandMoments c
  | _ => []

def actMoments (opening : State → State × Except Error Sink) (as : List Action) (w : State) :
    List Moment :=
  gather (fun a w => (w.act opening a).map (·.1)) actionMoments as w

/-- All bytes that a run writes to an outlet, in the order in which it does. -/
def sentTo (o : Outlet) (opening : State → State × Except Error Sink) (as : List Action)
    (w : State) : Bytes :=
  ((w.actMoments opening as).filterMap (·.deposit?)).flatMap (·.sent o)

variable {w u : State} {m : Location} {i : BufferId} {x : Outlets} {path : String}
  {a : Action} {as : List Action} {g : Grant} {opening : State → State × Except Error Sink}
  {P : State → State → List Moment → Prop}

theorem appendingTo_of_locate (h : w.files.locate path = .ok m) :
    w.appendingTo path = ({ w with files := w.files.touch m }, .ok (.outlet (.file m))) := by
  rw [appendingTo, openFile_of_locate h]

theorem appendingTo_cases (path : String) (w : State) :
    (w.appendingTo path).1 = w ∨
      ∃ m, (w.appendingTo path).1 = { w with files := w.files.touch m } := by
  rw [appendingTo]
  split
  · next h =>
    obtain ⟨m, -, -, rfl⟩ := openFile_ok h
    exact .inr ⟨m, rfl⟩
  · exact .inl rfl

theorem inHook_appendingTo (path : String) (w : State) :
    (w.appendingTo path).1.inHook = w.inHook := by
  rcases appendingTo_cases path w with h | ⟨m, h⟩ <;> rw [h]

theorem content_appendingTo (path : String) (w : State) (m : Location) :
    (w.appendingTo path).1.files.content m = w.files.content m := by
  rcases appendingTo_cases path w with h | ⟨k, h⟩
  · rw [h]
  · rw [h]
    exact FileTree.content_touch w.files k m

theorem actAll_eq_foldlM (as : List Action) (w : State) :
    (w.actAll opening as).map (·.1) =
      as.foldlM (fun w a => (w.act opening a).map (·.1)) w := by
  induction as generalizing w with
  | nil => rfl
  | cons a as ih =>
    rw [actAll, List.foldlM_cons]
    cases w.act opening a with
    | none => rfl
    | some p => exact (Option.map_map ..).trans (ih p.1)

theorem Tracks.act (hP : Tracks P) (ho : ∀ w, P w (opening w).1 [])
    (hi : ∀ w : State, (opening w).1.inHook = w.inHook) (hw : w.inHook = false)
    (h : w.act opening a = some (u, g)) : P w u (w.actionMoments a) ∧ u.inHook = false := by
  cases a with
  | openSink =>
    cases h
    exact ⟨ho w, (hi w).trans hw⟩
  | create b =>
    cases h
    exact ⟨hP.create w b, hw⟩
  | command c =>
    obtain ⟨⟨u, r⟩, hu, he⟩ := Option.map_eq_some_iff.mp h
    cases he
    exact ⟨(hP.perform hw c).2 u r hu, inHook_of_perform hw hu⟩

theorem Tracks.actAll {gs : List Grant} (hP : Tracks P) (ho : ∀ w, P w (opening w).1 [])
    (hi : ∀ w : State, (opening w).1.inHook = w.inHook) (hw : w.inHook = false)
    (h : w.actAll opening as = some (u, gs)) : P w u (w.actMoments opening as) := by
  have hu : (w.actAll opening as).map (·.1) = some u := congrArg (Option.map _) h
  rw [actAll_eq_foldlM] at hu
  refine (gather_rel (I := (·.inHook = false)) hP.refl hP.trans (fun a _ w u hw h => ?_) hw hu).1
  obtain ⟨⟨u, g⟩, ha, rfl⟩ := Option.map_eq_some_iff.mp h
  exact hP.act ho hi hw ha

theorem content_of_run {gs : List Grant} (hw : w.inHook = false)
    (h : w.actAll (appendingTo path) as = some (u, gs)) (m : Location) :
    u.files.content m = w.files.content m ++ w.sentTo (.file m) (appendingTo path) as := by
  have hs := (account_file m).tracks.actAll (content_appendingTo path · m)
    (inHook_appendingTo path) hw h
  rw [Account.Settled, List.foldl_append_eq_append] at hs
  rw [hs, sentTo, List.flatMap_def]

theorem Exchanged.touch (h : Exchanged m i x w u) :
    Exchanged m i x { w with files := w.files.touch m } u :=
  { h with
    directories := (FileTree.directories_touch w.files m).trans h.directories
    files := fun n hn => by
      rw [FileTree.content?_touch, if_neg hn]
      exact h.files n hn
    written := by
      rw [FileTree.content_touch]
      exact h.written }

theorem Exchanged.create (h : Exchanged m i x w u) (b : Builder) :
    Exchanged m i x { w with loggers := w.loggers.add b.build }
      { u with loggers := u.loggers.add (b.redirect (exchange m i)).build } :=
  { h with
    size := congrArg (· + 1) h.size
    loggers := fun k => by
      change (u.loggers.add _).get k = ((w.loggers.add _).get k).redirect _
      rw [Store.get_add, Store.get_add, h.size, Builder.build_redirect rfl]
      split
      · rfl
      · exact h.loggers k }

theorem act_exchanged (hm : x.files.locate path = .ok m) (ha : a.clears i = false)
    (h : Exchanged m i x w u) :
    Option.Rel (fun p q => Exchanged m i x p.1 q.1 ∧ q.2 = p.2.redirect (exchange m i) ∧
        (a = .openSink → p.2 = .sink (.ok (.outlet (.file m)))))
      (w.act (appendingTo path) a) (u.act (sharing i) (a.redirect (exchange m i))) := by
  cases a with
  | openSink =>
    have ho := appendingTo_of_locate (FileTree.locate_of_directories h.directories hm)
    have hs : exchange m i (.file m) = .buffer i := if_pos rfl
    rw [act, ho]
    refine .some ⟨h.touch, ?_, fun _ => rfl⟩
    exact congrArg (fun o => Grant.sink (.ok (.outlet o))) hs.symm
  | create b =>
    refine .some ⟨h.create b, ?_, by simp⟩
    exact congrArg Grant.logger h.size
  | command c =>
    have hp := (transport_exchanged m i x).perform h (carries_exchange (l := m) ha)
    rw [Command.rename_id] at hp
    exact rel_map hp (fun p q hq => ⟨hq.1, congrArg Grant.reply hq.2.symm, by simp⟩)

/-- Each action of a run that opens a sink gets one on the file. -/
def Opened (m : Location) (as : List Action) (gs : List Grant) : Prop :=
  List.Forall₂ (fun a g => a = .openSink → g = .sink (.ok (.outlet (.file m)))) as gs

theorem actAll_exchanged (hm : x.files.locate path = .ok m) (ha : ∀ a ∈ as, a.clears i = false)
    (h : Exchanged m i x w u) :
    Option.Rel (fun p q => Exchanged m i x p.1 q.1 ∧ q.2 = p.2.map (·.redirect (exchange m i)) ∧
        Opened m as p.2)
      (w.actAll (appendingTo path) as)
      (u.actAll (sharing i) (as.map (·.redirect (exchange m i)))) := by
  induction as generalizing w u with
  | nil => exact .some ⟨h, rfl, .nil⟩
  | cons a as ih =>
    obtain ⟨ha, has⟩ := List.forall_mem_cons.mp ha
    have hx := act_exchanged hm ha h
    rw [List.map_cons, actAll, actAll]
    generalize w.act (appendingTo path) a = p at hx
    generalize u.act (sharing i) (a.redirect (exchange m i)) = q at hx
    cases hx with
    | none => exact .none
    | some hx =>
      obtain ⟨hr, hg, ho⟩ := hx
      refine rel_map (ih has hr) (fun p q hp => ⟨hp.1, ?_, .cons ho hp.2.2⟩)
      rw [hg, hp.2.1]
      rfl

theorem exchanged_redirect (m : Location) (i : BufferId)
    (hw : ∀ h e, ∀ c ∈ (w.hooks.get h).body e, c.clears i = false) :
    Exchanged m i w.outlets w (w.redirect (exchange m i)) where
  size := rfl
  loggers k := Store.get_rename Function.injective_id _ w.loggers k
  clocks := rfl
  devices := rfl
  standardError := rfl
  hooks h := Store.get_rename Function.injective_id _ w.hooks h
  inHook := rfl
  formatted := rfl
  journal := rfl
  lasting := hw
  directories := rfl
  directories' := rfl
  buffers _ _ := rfl
  files _ _ := rfl
  written := ⟨[], (List.append_nil _).symm, (List.append_nil _).symm⟩
  received := ⟨[], (List.append_nil _).symm, (List.append_nil _).symm⟩

theorem setup_appendingTo (path : String) (w : State) :
    (w.appendingTo path).1.setup = w.setup ∧
      (w.appendingTo path).1.loggers.size = w.loggers.size := by
  rcases appendingTo_cases path w with h | ⟨m, h⟩
  · rw [h]
    exact ⟨rfl, rfl⟩
  · rw [h]
    exact ⟨rfl, rfl⟩

theorem act_steady (path : String) (hs : w.setup.Steady) (hz : 0 < w.loggers.size)
    (ha : a.isSteady = true) :
    ∃ p, w.act (appendingTo path) a = some p ∧ p.1.setup.Steady ∧ 0 < p.1.loggers.size := by
  cases a with
  | openSink =>
    obtain ⟨hu, hl⟩ := setup_appendingTo path w
    exact ⟨_, rfl, by rw [hu]; exact hs, by rw [hl]; exact hz⟩
  | create b =>
    refine ⟨_, rfl, fun k => ?_, Nat.succ_pos _⟩
    change ((w.loggers.add b.build).get k).sink.isSteady = true
    rw [Store.get_add]
    split
    · exact ha
    · exact hs k
  | command c =>
    obtain ⟨u, r, hu, hf⟩ := follows_perform hs hz ha
    refine ⟨(u, .reply r), by rw [act, hu]; rfl, ?_, ?_⟩
    · rw [hf.setup]
      exact Setup.steady_after hs ha
    · rw [hf.size]
      exact hz

theorem actAll_steady (hs : w.setup.Steady) (hz : 0 < w.loggers.size)
    (ha : ∀ a ∈ as, a.isSteady = true) : ∃ p, w.actAll (appendingTo path) as = some p := by
  induction as generalizing w with
  | nil => exact ⟨_, rfl⟩
  | cons a as ih =>
    obtain ⟨ha, has⟩ := List.forall_mem_cons.mp ha
    obtain ⟨p, hp, hs, hz⟩ := act_steady path hs hz ha
    obtain ⟨q, hq⟩ := ih hs hz has
    exact ⟨(q.1, p.2 :: q.2), by rw [actAll, hp]; dsimp only; rw [hq]; rfl⟩

/-- What comes of a run on a file and of the same run on a buffer: the same results but for the
sinks themselves, the same metrics, and the same bytes at the end of both. -/
structure SameOutcome (m : Location) (i : BufferId) (w : State) (sent : Bytes)
    (p q : State × List Grant) : Prop where
  grants : q.2 = p.2.map (·.redirect (exchange m i))
  metrics : ∀ l, (q.1.logger l).metrics = (p.1.logger l).metrics
  file : p.1.files.content m = w.files.content m ++ sent
  buffer : q.1.buffers.get i = w.buffers.get i ++ sent
  rest : Exchanged m i w.outlets p.1 q.1

theorem runs_agree (hm : w.files.locate path = .ok m) (hw : w.inHook = false)
    (hh : ∀ h e, ∀ c ∈ (w.hooks.get h).body e, c.clears i = false)
    (ha : ∀ a ∈ as, a.clears i = false) :
    Option.Rel
      (fun p q => SameOutcome m i w (w.sentTo (.file m) (appendingTo path) as) p q ∧
        Opened m as p.2)
      (w.actAll (appendingTo path) as)
      ((w.redirect (exchange m i)).actAll (sharing i) (as.map (·.redirect (exchange m i)))) := by
  have h := actAll_exchanged (x := w.outlets) hm ha (exchanged_redirect m i hh)
  generalize hp : w.actAll (appendingTo path) as = p at h ⊢
  generalize (w.redirect (exchange m i)).actAll (sharing i) _ = q at h ⊢
  cases h with
  | none => exact .none
  | some h =>
    obtain ⟨hr, hg, ho⟩ := h
    have hc := content_of_run hw hp m
    obtain ⟨b, hb, hu⟩ := hr.written
    obtain rfl : b = _ := List.append_cancel_left (hb.symm.trans hc)
    refine .some ⟨⟨hg, fun l => ?_, hc, hu, hr⟩, ho⟩
    rw [hr.loggers]
    rfl

/-- A file gets what is written to it behind what it held, however often it is opened, and the
buffer of a sink in memory gets the same in its place, with the same results and metrics. -/
theorem files_agree_with_buffers :
    (∀ (w u : State) path s, w.openFile path = .ok (u, s) → ∃ m,
      w.files.locate path = .ok m ∧ s = .outlet (.file m) ∧ u = { w with files := u.files } ∧
        u.files.directories = w.files.directories ∧
        (∀ n b, w.files.content? n = some b → u.files.content? n = some b) ∧
        (w.files.content? m = none → u.files.content? m = some []) ∧
        ∀ n, n ≠ m → u.files.content? n = w.files.content? n) ∧
    (∀ (w : State) path e, w.openFile path = .error e → w.appendingTo path = (w, .error e) ∧
      ∃ reason, w.files.locate path = .error reason ∧ e = .fileSink path reason) ∧
    ∀ (w : State) (path : String) (m : Location) (i : BufferId) (as : List Action),
      w.inHook = false → w.files.locate path = .ok m →
      (∀ h e, ∀ c ∈ (w.hooks.get h).body e, c.clears i = false) →
      (∀ a ∈ as, a.clears i = false) →
      Option.Rel
        (fun p q => SameOutcome m i w (w.sentTo (.file m) (appendingTo path) as) p q ∧
          Opened m as p.2)
        (w.actAll (appendingTo path) as)
        ((w.redirect (exchange m i)).actAll (sharing i) (as.map (·.redirect (exchange m i)))) ∧
      (w.setup.Steady → 0 < w.loggers.size → (∀ a ∈ as, a.isSteady = true) →
        ∃ p, w.actAll (appendingTo path) as = some p) := by
  refine ⟨fun w u path s h => ?_, fun w path e h => ⟨?_, openFile_error h⟩,
    fun w path m i as hw hm hh ha => ⟨runs_agree hm hw hh ha, actAll_steady⟩⟩
  · obtain ⟨m, hm, hs, rfl⟩ := openFile_ok h
    refine ⟨m, hm, hs, rfl, FileTree.directories_touch _ m,
      fun n b => FileTree.content?_touch_of_some, FileTree.content?_touch_of_none, fun n hn => ?_⟩
    rw [FileTree.content?_touch, if_neg hn]
  · rw [appendingTo, h]

def keptLog : State :=
  { initial (.fixed ⟨0, 0, 0⟩) with
    files := { files := [(["log"], Text.Utf8.ofString "old\n")] } }

/-- The log is opened twice, and written to by hand and by a new logger. -/
def reopening : List Action :=
  let sink : Sink := .outlet (.file ["log"])
  [.openSink, .create { sink := some sink, timeFormat := ⟨"%H"⟩ }, .command (.info 1 "up"),
    .openSink, .command (.write sink (Text.Utf8.ofString "hi")), .command (.info 1 "down")]

theorem reopening_appends :
    (∃ u s, keptLog.openFile "log" = .ok (u, s) ∧ u.files.content? ["log"] =
      some (Text.Utf8.ofString "old\n")) ∧
    keptLog.appendingTo "." = (keptLog, .error (.fileSink "." FileTree.isADirectory)) ∧
    ∃ p q, keptLog.actAll (appendingTo "log") reopening = some p ∧
      (keptLog.redirect (exchange ["log"] 0)).actAll (sharing 0)
        (reopening.map (·.redirect (exchange ["log"] 0))) = some q ∧
      p.1.files.content ["log"] = Text.Utf8.ofString "old\n" ++
        Text.Utf8.ofString "00\tINF up\nhi00\tINF down\n" ∧
      q.1.buffers.get 0 = Text.Utf8.ofString "00\tINF up\nhi00\tINF down\n" := by
  obtain ⟨ho, he, hr⟩ := files_agree_with_buffers
  have hl : keptLog.files.locate "log" = .ok ["log"] := by cbv
  have hd : keptLog.openFile "." = .error (.fileSink "." FileTree.isADirectory) := by cbv
  refine ⟨⟨_, _, openFile_of_locate hl, ?_⟩, (he _ _ _ hd).1, ?_⟩
  · obtain ⟨m, -, -, -, -, hk, -⟩ := ho _ _ _ _ (openFile_of_locate hl)
    exact hk ["log"] _ rfl
  · obtain ⟨ha, hs⟩ := hr keptLog "log" ["log"] 0 reopening rfl hl
      (fun _ _ _ hc => absurd hc List.not_mem_nil) (by decide)
    obtain ⟨p, hp⟩ := hs (fun k => by cases k <;> rfl) (by decide) (by decide)
    have hb : keptLog.sentTo (.file ["log"]) (appendingTo "log") reopening =
        Text.Utf8.ofString "00\tINF up\nhi00\tINF down\n" := by cbv
    rw [hp] at ha
    generalize (keptLog.redirect (exchange ["log"] 0)).actAll (sharing 0) _ = y at ha
    cases ha with
    | @some _ q h => exact ⟨p, q, hp, rfl, hb ▸ h.1.file, hb ▸ h.1.buffer⟩

end State

end LineLogger
