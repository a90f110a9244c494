import LineLogger.Proofs.Flushing
import LineLogger.Proofs.Lines
import LineLogger.Proofs.RawCalls

namespace LineLogger.State

open Relation (ReflTransGen TransGen)

def HandsOn (w : State) (k l : LoggerId) : Prop :=
  ∃ v, (w.logger k).sink = .writer v ∧ v.logger = l

def Involves (w : State) (k l : LoggerId) : Prop :=
  ∃ h e c, (w.logger k).hook = some h ∧ c ∈ (w.hooks.get h).body e ∧ c.subject? = some l

/-- A call on one logger may come to another one, by writers and hooks. -/
def Reaches (w : State) : LoggerId → LoggerId → Prop :=
  ReflTransGen fun k l => w.HandsOn k l ∨ w.Involves k l

def HooksOnlyLog (w : State) : Prop :=
  ∀ h e, ∀ c ∈ (w.hooks.get h).body e, c.subject?.isSome = true

/-- Writers and hooks know existing loggers only, and no line goes in a circle. -/
structure Sound (w : State) : Prop where
  handsOn_lt : ∀ k l, w.HandsOn k l → l < w.loggers.size
  involves_lt : ∀ k l, w.Involves k l → l < w.loggers.size
  acyclic : ∀ k, ¬TransGen w.HandsOn k k

/-- What a hook logs or flushes does not come to a logger that hands lines on to that of the hook,
for the sink of this one is locked. -/
def HooksAvoidCallers (w : State) : Prop :=
  ∀ k l m, w.Involves k l → ReflTransGen w.HandsOn l m → ¬TransGen w.HandsOn m k

variable {w u : State} {c : Command} {r : Reply} {depth : Nat} {held : List LoggerId}
  {l k m : LoggerId} {vs : List Writer} {o : Outlet} {free : Nat} {R : Set LoggerId}

theorem closed_reaches (hw : w.HooksOnlyLog) (l : LoggerId) : w.Closed {k | w.Reaches l k} where
  sink k hk v hv := hk.tail (.inl ⟨v, hv, rfl⟩)
  hook k hk h hh e c hc := by
    obtain ⟨m, hm⟩ := Option.isSome_iff_exists.mp (hw h e c hc)
    exact ⟨m, hk.tail (.inr ⟨h, e, c, hh, hc, hm⟩), hm⟩

theorem Chained.handsOn (hc : w.Chained l vs o) (hk : k ∈ loggersOf l vs) :
    ReflTransGen w.HandsOn l k := by
  induction vs generalizing l with
  | nil => exact List.mem_singleton.mp hk ▸ .refl
  | cons v vs ih =>
    obtain rfl | hk := List.mem_cons.mp hk
    · exact .refl
    · exact .head ⟨v, hc.1, rfl⟩ (ih hc.2 hk)

theorem Sound.lt_size (hw : w.Sound) (hl : l < w.loggers.size) (hc : w.Chained l vs o)
    (hk : k ∈ loggersOf l vs) : k < w.loggers.size := by
  obtain rfl | ⟨m, -, hm⟩ := (hc.handsOn hk).cases_tail
  · exact hl
  · exact hw.handsOn_lt m k hm

theorem Sound.length_lt (hw : w.Sound) (hl : l < w.loggers.size) (hc : w.Chained l vs o) :
    vs.length < w.loggers.size :=
  length_lt_size hc.nodup fun _ hk => hw.lt_size hl hc hk

/-- Among finitely many loggers a chain without a circle comes to an end. -/
theorem Sound.wellFounded (hw : w.Sound) :
    WellFounded fun a b : Fin w.loggers.size => w.HandsOn b a := by
  let behind : Fin w.loggers.size → Fin w.loggers.size → Prop := fun a b => TransGen w.HandsOn b a
  have : IsTrans _ behind := ⟨fun a b c hab hbc => hbc.trans hab⟩
  have : Std.Irrefl behind := ⟨fun a ha => hw.acyclic a ha⟩
  exact Subrelation.wf (fun h => .single h) (Finite.wellFounded_of_trans_of_irrefl behind)

theorem Sound.exists_chained (hw : w.Sound) (hl : l < w.loggers.size) :
    ∃ vs o, w.Chained l vs o := by
  have h := hw.wellFounded.induction (C := fun a => ∃ vs o, w.Chained a vs o) ⟨l, hl⟩
  refine h fun a ih => ?_
  cases hs : (w.logger a).sink with
  | outlet o => exact ⟨[], o, hs⟩
  | writer v =>
    have hv : w.HandsOn a v.logger := ⟨v, hs, rfl⟩
    obtain ⟨vs, o, hc⟩ := ih ⟨v.logger, hw.handsOn_lt _ _ hv⟩ hv
    exact ⟨v :: vs, o, hs, hc⟩

structure SameWiring (w u : State) : Prop where
  sink : ∀ k, (u.logger k).sink = (w.logger k).sink
  hook : ∀ k, (u.logger k).hook = (w.logger k).hook
  hooks : u.hooks = w.hooks
  size : u.loggers.size = w.loggers.size

theorem Confined.sameWiring (h : Confined R w u) : SameWiring w u :=
  ⟨h.sink, h.hook, h.hooks, h.size⟩

namespace SameWiring

theorem handsOn (h : SameWiring w u) : u.HandsOn = w.HandsOn := by
  funext k l
  rw [HandsOn, HandsOn, h.sink]

theorem involves (h : SameWiring w u) : u.Involves = w.Involves := by
  funext k l
  simp only [Involves, h.hook, h.hooks]

theorem sound (h : SameWiring w u) (hw : w.Sound) : u.Sound where
  handsOn_lt k l hk := by
    rw [h.handsOn] at hk
    exact h.size ▸ hw.handsOn_lt k l hk
  involves_lt k l hk := by
    rw [h.involves] at hk
    exact h.size ▸ hw.involves_lt k l hk
  acyclic := h.handsOn ▸ hw.acyclic

end SameWiring

theorem handsOn_of_descend {q : Call} {a : Landing} (h : w.descend free held q = some a) :
    ReflTransGen w.HandsOn q.logger a.logger ∧ ∀ p ∈ a.passed, TransGen w.HandsOn p a.logger := by
  fun_induction descend free held q w generalizing a with
  | case1 => cases h
  | case2 => cases h
  | case3 held q w ha hl free v hs ih =>
    obtain ⟨b, hb, rfl⟩ := Option.map_eq_some_iff.mp h
    have hi := ih hb
    rw [(Confined.opened (Set.mem_univ q.logger) w).sameWiring.handsOn] at hi
    have hv : w.HandsOn q.logger (w.handedOn q v).logger := ⟨v, hs, rfl⟩
    refine ⟨.head hv hi.1, fun p hp => ?_⟩
    obtain hp | hp := List.mem_append.mp hp
    · exact hi.2 p hp
    · obtain rfl := List.mem_singleton.mp hp
      exact .head' hv hi.1
  | case4 held q w ha hl free o hs =>
    cases h
    exact ⟨.refl, by simp [Landing.ofDelivery]⟩
  | case5 =>
    cases h
    exact ⟨.refl, by simp⟩

theorem flush_returns (hw : w.Sound) (hc : c.flushed? = some l) (hl : l < w.loggers.size)
    (hh : ∀ m, ReflTransGen w.HandsOn l m → m ∉ held) (f : OnFailure) :
    ∃ p, w.exec f held c = some p := by
  obtain ⟨vs, o, hv⟩ := hw.exists_chained hl
  obtain ⟨k, hk⟩ := exec_of_flush hc
  have hlast := List.getLast?_eq_some_getLast (List.cons_ne_nil l (vs.map (·.logger)))
  obtain ⟨u, hu, -⟩ := flush_chained hv hlast (fun m hm => hh m (hv.handsOn hm))
    (hw.length_lt hl hv)
  rw [hk, hu]
  exact ⟨_, rfl⟩

theorem exec_returns (hw : w.Sound) (hi : w.inHook = true) (hc : c.subject? = some l)
    (hl : l < w.loggers.size) (hh : ∀ m, ReflTransGen w.HandsOn l m → m ∉ held) :
    ∃ p, w.exec (onFailure depth) held c = some p := by
  cases hq : c.call? with
  | some q =>
    cases (subject?_of_call hq).symm.trans hc
    obtain ⟨vs, o, hv⟩ := hw.exists_chained hl
    obtain ⟨u, hu⟩ := exec_of_chained hq hv hv.nodup fun k hk =>
      ⟨hw.lt_size hl hv hk, hh k (hv.handsOn hk), fun held e u _ hu _ => by
        rw [onFailure_of_inHook (hu.trans hi)]
        rfl⟩
    exact ⟨_, hu⟩
  | none =>
    rcases plain_of_subject hc hq with ⟨r, hr⟩ | hk
    · exact ⟨_, hr _ held w⟩
    · exact flush_returns hw hk hl hh _

theorem closed_univ (hw : w.HooksOnlyLog) : w.Closed Set.univ where
  sink k _ v _ := Set.mem_univ v.logger
  hook k _ h _ e c hc := by
    obtain ⟨m, hm⟩ := Option.isSome_iff_exists.mp (hw h e c hc)
    exact ⟨m, Set.mem_univ m, hm⟩

theorem execAll_returns {cs : List Command} (hw : w.Sound) (hi : w.inHook = true)
    (ho : w.HooksOnlyLog)
    (hc : ∀ c ∈ cs, ∃ l < w.loggers.size, c.subject? = some l ∧
      ∀ m, ReflTransGen w.HandsOn l m → m ∉ held) :
    ∃ u, w.execAll (onFailure depth) held cs = some u := by
  induction cs generalizing w with
  | nil => exact ⟨w, rfl⟩
  | cons c cs ih =>
    obtain ⟨⟨l, hl, hs, hh⟩, hcs⟩ := List.forall_mem_cons.mp hc
    obtain ⟨⟨v, r⟩, hv⟩ : ∃ p, w.exec (onFailure depth) held c = some p :=
      exec_returns hw hi hs hl hh
    have hx := confined_exec (keeps_onFailure .univ depth) (closed_univ ho) hs (Set.mem_univ l) hv
    have hcs' : ∀ c ∈ cs, ∃ l < v.loggers.size, c.subject? = some l ∧
        ∀ m, ReflTransGen v.HandsOn l m → m ∉ held := by
      rw [hx.sameWiring.handsOn, hx.size]
      exact hcs
    obtain ⟨u, hu⟩ := ih (hx.sameWiring.sound hw) ((unhooked_of_inHook hi hv).inHook.trans hi)
      (fun h => hx.hooks ▸ ho h) hcs'
    rw [execAll, hv]
    exact ⟨u, hu⟩

theorem settle_returns {q : Call} {a : Landing} (hw : w.Sound) (ho : w.HooksOnlyLog)
    (ha : w.HooksAvoidCallers) (h : w.descend free [] q = some a) :
    ∃ u, a.settle (onFailure 1) [] = some u := by
  cases hi : a.state.inHook with
  | true => exact ⟨_, Landing.settle_of_inHook hi 1 []⟩
  | false =>
    rcases a.hook_cases with hn | ⟨e, i, hf, hh⟩
    · exact ⟨_, Landing.settle_of_no_hook hn 1 []⟩
    · obtain ⟨hd, hm, -⟩ := confined_descend (closed_univ ho) (Set.mem_univ q.logger) h
      have hx := (hd.trans (confined_ended hm)).trans (.enterHook .univ a.ended a.logger i e)
      obtain ⟨u, hu⟩ : ∃ u, (a.ended.enterHook a.logger i e).execAll (onFailure 0) (a.passed ++ [])
          ((a.ended.hooks.get i).body e) = some u := by
        apply execAll_returns (hx.sameWiring.sound hw) rfl fun h => hx.hooks ▸ ho h
        rw [List.append_nil, hx.sameWiring.handsOn, hx.size]
        intro c hc
        have hk : a.ended.hooks = w.hooks := hx.hooks
        have hc' : c ∈ (w.hooks.get i).body e := hk ▸ hc
        obtain ⟨m, hs⟩ := Option.isSome_iff_exists.mp (ho i e c hc')
        have hv : w.Involves a.logger m := ⟨i, e, c, (hd.hook a.logger).symm.trans hh, hc', hs⟩
        refine ⟨m, hw.involves_lt _ _ hv, hs, fun p hp hpass => ?_⟩
        exact ha _ _ _ hv hp ((handsOn_of_descend h).2 p hpass)
      rw [Landing.settle_of_hook hi hf hh, hu]
      exact ⟨_, rfl⟩

theorem perform_returns (hw : w.Sound) (ho : w.HooksOnlyLog) (ha : w.HooksAvoidCallers)
    (hc : c.subject? = some l) (hl : l < w.loggers.size) : ∃ p, w.perform c = some p := by
  cases hq : c.call? with
  | some q =>
    cases (subject?_of_call hq).symm.trans hc
    obtain ⟨vs, o, hv⟩ := hw.exists_chained hl
    obtain ⟨a, hd, -⟩ := descend_of_chained hv hv.nodup (fun _ _ => List.not_mem_nil)
      (hw.length_lt hl hv)
    obtain ⟨u, hu⟩ := settle_returns hw ho ha hd
    rw [perform, exec_of_descend hq _ hd, hu]
    exact ⟨_, rfl⟩
  | none =>
    rcases plain_of_subject hc hq with ⟨r, hr⟩ | hk
    · exact ⟨_, hr _ [] w⟩
    · exact flush_returns hw hk hl (fun _ _ => List.not_mem_nil) _

theorem tally_flush {x : Option IoError} (h : w.flush free held l = some (u, x)) {d : Counter}
    (hd : d ≠ .flushFailure) (k : LoggerId) : u.tally k d = w.tally k d := by
  apply flush_frame (f := fun w => w.tally k d) (fun _ _ => rfl) ?_ ?_ h
  · intro w m
    rw [tally_count, if_neg fun e => hd e.2.symm, UInt64.add_zero]
  · intro w o
    cases o <;> rfl

/-- A call or a flush is the work of the loggers that it can come to, by writers and by hooks. It
returns if no line goes in a circle and hooks avoid the loggers that wait for theirs. -/
theorem calls_stay_within_reach (w : State) (l : LoggerId) (c : Command) (ho : w.HooksOnlyLog)
    (hc : c.subject? = some l) :
    (∀ depth held u r, w.exec (onFailure depth) held c = some (u, r) →
      Confined {k | w.Reaches l k} w u ∧
        (c.flushed? = some l → u.clocks = w.clocks ∧
          ∀ k d, d ≠ .flushFailure → u.tally k d = w.tally k d)) ∧
    (w.Sound → w.HooksAvoidCallers → l < w.loggers.size → ∃ u r, w.perform c = some (u, r)) := by
  refine ⟨fun depth held u r h => ⟨?_, fun hf => ?_⟩, fun hw ha hl => ?_⟩
  · exact confined_exec (keeps_onFailure _ depth) (closed_reaches ho l) hc .refl h
  · obtain ⟨x, hx⟩ := flush_of_exec hf h
    exact ⟨clocks_flush hx, fun k d hd => tally_flush hx hd k⟩
  · obtain ⟨⟨u, r⟩, hu⟩ := perform_returns hw ho ha hc hl
    exact ⟨u, r, hu⟩

def bystander : State :=
  let other : Logger := { clock := 5, sink := .outlet (.buffer 3) }
  { failing with loggers := failing.loggers.add other }

theorem handsOn_bystander (h : bystander.HandsOn k l) : k = 1 ∧ l = 0 := by
  obtain ⟨v, hv, rfl⟩ := h
  rcases k with _ | _ | _ | k <;> cases hv
  exact ⟨rfl, rfl⟩

theorem involves_bystander (h : bystander.Involves k l) : l = 0 := by
  obtain ⟨i, e, c, -, hc, hl⟩ := h
  cases List.mem_singleton.mp hc
  exact (Option.some.inj hl).symm

theorem not_handsOn_bystander (k : LoggerId) : ¬TransGen bystander.HandsOn 0 k := by
  intro h
  obtain ⟨m, hm, -⟩ := Relation.TransGen.head'_iff.mp h
  exact absurd (handsOn_bystander hm).1 (by decide)

theorem sound_bystander : bystander.Sound where
  handsOn_lt k l h := by
    rw [(handsOn_bystander h).2]
    decide
  involves_lt k l h := by
    rw [involves_bystander h]
    decide
  acyclic k h := by
    obtain ⟨m, -, hm⟩ := Relation.TransGen.tail'_iff.mp h
    exact not_handsOn_bystander 0 ((handsOn_bystander hm).2 ▸ h)

theorem hooksAvoidCallers_bystander : bystander.HooksAvoidCallers := by
  intro k l m hk hm hmk
  rw [involves_bystander hk] at hm
  obtain rfl | hm := Relation.reflTransGen_iff_eq_or_transGen.mp hm
  · exact not_handsOn_bystander k hmk
  · exact not_handsOn_bystander m hm

theorem reaches_bystander (h : bystander.Reaches 1 k) : k < 2 := by
  obtain rfl | ⟨m, -, hm | hm⟩ := h.cases_tail
  · decide
  · rw [(handsOn_bystander hm).2]
    decide
  · rw [involves_bystander hm]
    decide

theorem bystander_stands_by : ∃ u r v x,
    bystander.perform (.info 1 "up") = some (u, r) ∧ u.logger 2 = bystander.logger 2 ∧
      u.clocks.get 5 = bystander.clocks.get 5 ∧ u.buffers.get 3 = [] ∧
      (u.logger 0).bare = (bystander.logger 0).bare ∧
      bystander.perform (.flush 1) = some (v, x) ∧ v.clocks = bystander.clocks := by
  have ho : bystander.HooksOnlyLog := by
    intro h e c hc
    cases List.mem_singleton.mp hc
    rfl
  have hk : ∀ k, bystander.Reaches 1 k →
      (bystander.logger k).clock ≠ 5 ∧ (bystander.logger k).sink ≠ .outlet (.buffer 3) := by
    intro k h
    have := reaches_bystander h
    interval_cases k <;> decide
  obtain ⟨hx, hp⟩ := calls_stay_within_reach bystander 1 (.info 1 "up") ho rfl
  obtain ⟨hy, hq⟩ := calls_stay_within_reach bystander 1 (.flush 1) ho rfl
  obtain ⟨u, r, hu⟩ := hp sound_bystander hooksAvoidCallers_bystander (by decide)
  obtain ⟨v, x, hv⟩ := hq sound_bystander hooksAvoidCallers_bystander (by decide)
  obtain ⟨hc, -⟩ := hx 1 [] u r hu
  have hb := hc.holding (.buffer 3) fun k h => (hk k h).2
  have h2 := hc.loggers 2 fun h => absurd (reaches_bystander h) (by decide)
  exact ⟨u, r, v, x, hu, h2, hc.clocks 5 fun k h => (hk k h).1, Holding.bytes.inj hb, hc.bare 0, hv,
    ((hy 1 [] v x hv).2 rfl).1⟩

end LineLogger.State
