import LineLogger.Proofs.Moments

namespace LineLogger

/-- What concerns the counters of a logger: a call that reaches it and what becomes of its line, a
flush of its sink, or that it starts to count anew. -/
inductive Record
  | call (logger : LoggerId) (fate : Fate)
  | flush (logger : LoggerId) (failure : Option IoError)
  | anew (logger : LoggerId)

namespace Record

def counted? : Record → Option (LoggerId × Counter)
  | .call l f => some (l, f.counter)
  | .flush l (some _) => some (l, .flushFailure)
  | .flush _ none => none
  | .anew _ => none

def counts (l : LoggerId) (c : Counter) (r : Record) : Bool := r.counted? = some (l, c)

def events : Record → List Event
  | .call l (.lost e) => [.reached l, .lost l e]
  | .call l .filtered => [.reached l]
  | .call l .written => [.reached l]
  | .flush l e => [.flushed l e]
  | .anew _ => []

def added (l : LoggerId) (c : Counter) (rs : List Record) : UInt64 :=
  .ofNat (rs.countP (·.counts l c))

variable (l : LoggerId) (c : Counter) (r : Record) (rs ss : List Record)

theorem added_append : added l c (rs ++ ss) = added l c rs + added l c ss := by
  rw [added, List.countP_append, UInt64.ofNat_add]
  rfl

theorem added_of_counted {k : LoggerId} {d : Counter} (h : r.counted? = some (k, d)) :
    added l c [r] = if l = k ∧ d = c then 1 else 0 := by
  rw [added, List.countP_singleton, counts, h]
  by_cases hl : l = k
  · by_cases hd : d = c
    · simp [hl, hd]
    · simp [hl, hd]
  · simp [hl, Ne.symm hl]

theorem added_reverse : added l c rs.reverse = added l c rs := by
  rw [added, List.countP_reverse]
  rfl

end Record

def deeds (es : List Event) : List Event := es.filter (!·.isHookMark)

theorem deeds_append (es fs : List Event) : deeds (es ++ fs) = deeds es ++ deeds fs :=
  List.filter_append ..

/-- The records of a line: every logger that handed it on wrote it, and the last one knows better
what became of it. -/
def Landing.records (a : Landing) : List Record :=
  a.passed.reverse.map (.call · .written) ++ [.call a.logger a.fate]

theorem Landing.events_records (a : Landing) :
    a.records.flatMap (·.events) = a.path.map .reached ++ a.losses := by
  have hp : (a.passed.reverse.map (Record.call · .written)).flatMap (·.events) =
      a.passed.reverse.map .reached := by
    rw [List.flatMap_map]
    exact List.map_eq_flatMap.symm
  rw [records, List.flatMap_append, hp, path, List.reverse_cons, List.map_append, List.append_assoc,
    losses]
  cases a.fate <;> rfl

theorem Record.deeds_events (rs : List Record) :
    deeds (rs.flatMap (·.events)) = rs.flatMap (·.events) := by
  rw [deeds, List.filter_flatMap]
  congr 1
  funext r
  cases r with
  | call l f => cases f <;> rfl
  | flush l e => rfl
  | anew l => rfl

theorem Landing.records_via (l : LoggerId) (a : Landing) :
    (a.via l).records = .call l .written :: a.records := by
  simp [records, via]

namespace State

/-- The flushes along the sinks of a logger, the innermost one first. -/
def flushRecords (w : State) : Nat → LoggerId → List Record
  | 0, _ => []
  | free + 1, l =>
    match (w.logger l).sink with
    | .writer v => w.flushRecords free v.logger ++ [.flush l none]
    | .outlet o => [.flush l (w.flushOutlet o).2]

def ownRecords (held : List LoggerId) (c : Command) (w : State) : List Record :=
  match c.call? with
  | some q => ((w.descend w.loggers.size held q).map (·.records)).getD []
  | none =>
    match c with
    | .resetMetrics l => [.anew l]
    | _ => (c.flushed?.map (w.flushRecords w.loggers.size)).getD []

end State

def Moment.records (m : Moment) : List Record := m.state.ownRecords m.held m.command

namespace State

def records (c : Command) (w : State) : List Record := (w.commandMoments c).flatMap (·.records)

variable {w u v : State} {a : Landing} {rs ss : List Record} {c : Command} {q : Call}
  {l : LoggerId} {k : HookId} {e : IoError} {held : List LoggerId} {free depth : Nat}

/-- All counters have gone up by what the records say, and the journal tells the same. -/
structure Accounts (w u : State) (rs : List Record) : Prop where
  tally : ∀ l c, u.tally l c = w.tally l c + Record.added l c rs
  journal : deeds u.journal = deeds w.journal ++ rs.flatMap (·.events)
  hooks : u.hooks = w.hooks
  lasting : ∀ r ∈ rs, ∀ l, r ≠ .anew l

theorem Accounts.of_eq (ht : ∀ l c, u.tally l c = w.tally l c) (hj : u.journal = w.journal)
    (hh : u.hooks = w.hooks) : Accounts w u [] where
  tally l c := by
    rw [ht]
    exact (UInt64.add_zero _).symm
  journal := by
    rw [hj]
    exact (List.append_nil _).symm
  hooks := hh
  lasting := by simp

theorem Accounts.refl (w : State) : Accounts w w [] := .of_eq (fun _ _ => rfl) rfl rfl

theorem Accounts.trans (h : Accounts w u rs) (h' : Accounts u v ss) : Accounts w v (rs ++ ss) where
  tally l c := by
    rw [h'.tally, h.tally, Record.added_append, UInt64.add_assoc]
  journal := by
    rw [h'.journal, h.journal, List.flatMap_append, List.append_assoc]
  hooks := h'.hooks.trans h.hooks
  lasting r hr := (List.mem_append.mp hr).elim (h.lasting r) (h'.lasting r)

theorem tally_countAll (w : State) (ls : List LoggerId) (k : LoggerId) (d : Counter) :
    (w.countAll ls .written).tally k d =
      w.tally k d + Record.added k d (ls.map (.call · .written)) := by
  induction ls generalizing w with
  | nil => exact (UInt64.add_zero _).symm
  | cons l ls ih =>
    change ((w.count l .written).countAll ls .written).tally k d =
      w.tally k d + Record.added k d ([.call l .written] ++ ls.map (.call · .written))
    rw [ih, tally_count, Record.added_append, Record.added_of_counted k d _ rfl, UInt64.add_assoc]
    rfl

theorem accounts_settled (hd : Descends w a) (h : Accounts a.ended v rs) :
    Accounts w (v.countAll a.passed .written) (a.records ++ rs) where
  tally k c := by
    rw [tally_countAll, h.tally, Landing.tally_ended, hd.tally, Landing.records,
      Record.added_append, Record.added_append, List.map_reverse, Record.added_reverse,
      Record.added_of_counted k c _ rfl]
    -- The loggers on the way are recorded first but count last.
    ac_rfl
  journal := by
    have hj := countAll_frame (c := .written) (f := fun w => w.journal) (fun _ _ => rfl) v a.passed
    rw [hj, h.journal, (Landing.leaves_ended hd).journal, deeds_append, ← Landing.events_records,
      Record.deeds_events, List.flatMap_append, List.append_assoc]
  hooks := by
    have hh := countAll_frame (c := .written) (f := fun w => w.hooks) (fun _ _ => rfl) v a.passed
    exact hh.trans (h.hooks.trans (Landing.leaves_ended hd).hooks)
  lasting r hr := by
    have ha : ∀ r ∈ a.records, ∀ l, r ≠ .anew l := by
      rw [Landing.records]
      grind
    exact (List.mem_append.mp hr).elim (ha r) (h.lasting r)

theorem flushRecords_flush {free : Nat} {r : Record} (h : r ∈ w.flushRecords free l) :
    ∃ k x, r = .flush k x := by
  induction free generalizing l with
  | zero => cases h
  | succ free ih =>
    rw [flushRecords] at h
    split at h
    · obtain h | h := List.mem_append.mp h
      · exact ih h
      · exact ⟨l, none, List.mem_singleton.mp h⟩
    · exact ⟨l, _, List.mem_singleton.mp h⟩

theorem ownRecords_of_call (hq : c.call? = some q)
    (ha : w.descend w.loggers.size held q = some a) : w.ownRecords held c = a.records := by
  simp only [ownRecords, hq, ha]
  rfl

theorem records_eq_append (hq : c.call? = some q)
    (ha : w.descend w.loggers.size [] q = some a) :
    w.records c = a.records ++ (hookMoments a).flatMap (·.records) := by
  rw [records, commandMoments, hq, Option.bind_some, ha, List.flatMap_cons, Moment.records,
    ownRecords_of_call hq ha]
  rfl

theorem records_of_no_call (hc : c.call? = none) : w.records c = w.ownRecords [] c := by
  rw [records, commandMoments, hc]
  exact List.append_nil _

theorem records_of_flush (h : c.flushed? = some l) :
    w.records c = w.flushRecords w.loggers.size l := by
  cases c with
  | flush k =>
    cases h
    exact records_of_no_call rfl
  | flushSink s =>
    cases s with
    | writer v =>
      cases h
      exact records_of_no_call rfl
    | outlet o => cases h
  | _ => cases h

theorem accounts_flushed (w : State) (l : LoggerId) :
    Accounts w (w.note (.flushed l none)) [.flush l none] where
  tally _ _ := (UInt64.add_zero _).symm
  journal := deeds_append ..
  hooks := rfl
  lasting := by simp

theorem accounts_flush_failed (w : State) (l : LoggerId) (e : IoError) :
    Accounts w ((w.note (.flushed l (some e))).count l .flushFailure) [.flush l (some e)] where
  tally k c := by
    rw [tally_count, Record.added_of_counted k c _ rfl]
    rfl
  journal := deeds_append ..
  hooks := rfl
  lasting := by simp

theorem accounts_outlets {α : Type} {p : State → State × α} (hp : OnOutlets p) (w : State) :
    Accounts w (p w).1 [] := by
  obtain ⟨g, hg⟩ := hp
  rw [hg]
  exact .of_eq (fun _ _ => rfl) rfl rfl

theorem accounts_flush {x : Option IoError} (h : w.flush free held l = some (u, x)) :
    Accounts w u (w.flushRecords free l) ∧
      ∃ rs, w.flushRecords free l = rs ++ [.flush l x] := by
  fun_induction flush free held l w generalizing u x with
  | case1 => cases h
  | case2 => cases h
  | case3 => cases h
  | case4 held l hl free v hs y e' hy ih =>
    cases h
    rw [flushRecords, hs]
    exact ⟨(ih hy).1.trans (accounts_flushed y l), _, rfl⟩
  | case5 held l hl free o hs y hy =>
    cases h
    have ho : Accounts w (w.flushOutlet o).1 [] := accounts_outlets (onOutlets_flushOutlet o) w
    rw [hy] at ho
    rw [flushRecords, hs]
    dsimp only
    rw [hy]
    exact ⟨ho.trans (accounts_flushed y l), [], rfl⟩
  | case6 held l hl free o hs y e' hy =>
    cases h
    have ho : Accounts w (w.flushOutlet o).1 [] := accounts_outlets (onOutlets_flushOutlet o) w
    rw [hy] at ho
    rw [flushRecords, hs]
    dsimp only
    rw [hy]
    exact ⟨ho.trans (accounts_flush_failed y l e'), [], rfl⟩

variable {f : OnFailure} {cs : List Command} {r : Reply}

theorem accounts_of_no_call (hc : c.call? = none) (hn : ∀ k, c ≠ .resetMetrics k)
    (h : w.exec f held c = some (u, r)) : Accounts w u (w.ownRecords held c) := by
  -- Without a call only a flush is recorded, as the reset is excluded here.
  have ho : w.ownRecords held c = (c.flushed?.map (w.flushRecords w.loggers.size)).getD [] := by
    cases c with
    | resetMetrics k => exact absurd rfl (hn k)
    | _ => simp only [ownRecords, hc]
  cases plain_of_no_call hc with
  | idle hf r' hr =>
    cases (hr f held w).symm.trans h
    rw [ho, hf]
    exact .refl w
  | flush l hf k hl =>
    rw [hl] at h
    obtain ⟨⟨x, e⟩, hx, he⟩ := Option.map_eq_some_iff.mp h
    cases he
    rw [ho, hf]
    exact (accounts_flush hx).1
  | set l s hs =>
    subst hs
    obtain ⟨rfl, -⟩ := change_cases h
    exact .of_eq (fun k d => tally_set w l k s d) rfl rfl
  | reset l hs => exact absurd hs (hn l)
  | outlets hf p hp hr =>
    have hu : p w = (u, r) := Option.some.inj ((hr f held w).symm.trans h)
    have ha := accounts_outlets hp w
    rw [hu] at ha
    rw [ho, hf]
    exact ha

theorem accounts_exec (hw : w.inHook = true) (hn : ∀ k, c ≠ .resetMetrics k)
    (h : w.exec (onFailure depth) held c = some (u, r)) : Accounts w u (w.ownRecords held c) := by
  cases hc : c.call? with
  | none => exact accounts_of_no_call hc hn h
  | some q =>
    obtain ⟨a, ha, hs⟩ := descend_of_exec hc h
    have hd := descends_of_descend ha
    -- Inside a hook no other hook runs: a lost line is counted, and that is all.
    rw [Landing.settle_of_inHook (hd.inHook.trans hw)] at hs
    cases hs
    have hr := accounts_settled hd (.refl a.ended)
    rw [List.append_nil] at hr
    rw [ownRecords_of_call hc ha]
    exact hr

theorem accounts_body (hw : w.inHook = true) (hn : ∀ c ∈ cs, ∀ k, c ≠ .resetMetrics k)
    (h : w.execAll (onFailure 0) held cs = some u) :
    Accounts w u ((w.bodyMoments held cs).flatMap (·.records)) := by
  rw [execAll_eq_foldlM] at h
  refine (gather_rel (P := fun w u ms => Accounts w u (ms.flatMap Moment.records))
    (I := (·.inHook = true)) .refl (fun h h' => ?_) (fun c hc w u hw h => ?_) hw h).1
  · rw [List.flatMap_append]
    exact h.trans h'
  · obtain ⟨⟨u, r⟩, hu, rfl⟩ := Option.map_eq_some_iff.mp h
    rw [List.flatMap_singleton]
    exact ⟨accounts_exec hw (hn c hc) hu, (unhooked_of_inHook hw hu).inHook.trans hw⟩

def HooksKeepCounts (w : State) : Prop :=
  ∀ h e, ∀ c ∈ (w.hooks.get h).body e, ∀ k, c ≠ .resetMetrics k

theorem HooksKeepCounts.of_hooks (h : w.HooksKeepCounts) (hu : u.hooks = w.hooks) :
    u.HooksKeepCounts := by
  rw [HooksKeepCounts, hu]
  exact h

theorem Accounts.hooked (h : Accounts (w.enterHook l k e) u rs) :
    Accounts w (u.leaveHook l) rs where
  tally := h.tally
  journal := by
    have hu : (u.leaveHook l).journal = u.journal ++ [.hookEnded l] := rfl
    have hw : (w.enterHook l k e).journal = w.journal ++ [.hookBegan l k e] := rfl
    rw [hu, deeds_append, h.journal, hw, deeds_append]
    simp [deeds, Event.isHookMark]
  hooks := h.hooks
  lasting := h.lasting

theorem accounts_perform (hw : w.inHook = false) (hh : w.HooksKeepCounts)
    (hn : ∀ k, c ≠ .resetMetrics k) (h : w.perform c = some (u, r)) :
    Accounts w u (w.records c) := by
  cases hc : c.call? with
  | none =>
    rw [records_of_no_call hc]
    exact accounts_of_no_call hc hn h
  | some q =>
    obtain ⟨a, ha, hs⟩ := descend_of_exec hc h
    have hd := descends_of_descend ha
    rw [records_eq_append hc ha]
    obtain ⟨hf, rfl⟩ | ⟨e, k, v, hf, hk, hv, rfl⟩ := Landing.settle_cases (hd.inHook.trans hw) hs
    · rw [hookMoments_of_no_hook hf]
      exact accounts_settled hd (.refl a.ended)
    · -- The hook starts when the loss is counted, and the loggers on the way count after it.
      have hn : ∀ c ∈ (a.ended.hooks.get k).body e, ∀ l, c ≠ .resetMetrics l := by
        rw [(Landing.leaves_ended hd).hooks]
        exact hh k e
      have hb := accounts_body rfl hn hv
      rw [List.append_nil] at hb
      rw [hookMoments_of_hook hf hk]
      exact accounts_settled hd hb.hooked

theorem records_of_descend (h : w.descend free held q = some a) :
    ∃ x rs, a.records = .call q.logger x :: rs ∧ (x = .filtered ↔ w.admits q = false) := by
  cases ha : w.admits q with
  | false =>
    rw [descend_of_not_admits ha] at h
    cases h
    exact ⟨_, _, rfl, by simp⟩
  | true =>
    obtain ⟨hl, n, rfl⟩ := free_of_descend ha h
    rw [descend_succ ha hl] at h
    split at h
    · obtain ⟨b, -, rfl⟩ := Option.map_eq_some_iff.mp h
      exact ⟨_, _, Landing.records_via q.logger b, by simp⟩
    · cases h
      exact ⟨_, _, rfl, by simpa using Landing.fate_ofDelivery_ne q.logger _⟩

theorem perform_flush (h : w.perform (.flush l) = some (u, r)) :
    ∃ rs x, w.records (.flush l) = rs ++ [.flush l x] ∧ (r = .done ↔ x = none) := by
  obtain ⟨⟨y, x⟩, hy, he⟩ := Option.map_eq_some_iff.mp h
  obtain ⟨rs, hr⟩ := (accounts_flush hy).2
  refine ⟨rs, x, (records_of_flush rfl).trans hr, ?_⟩
  cases he
  cases x <;> simp

theorem records_of_call (hq : c.call? = some q) (h : w.perform c = some (u, r)) :
    ∃ x rs, w.records c = .call q.logger x :: rs ∧ (x = .filtered ↔ w.admits q = false) := by
  obtain ⟨a, ha, -⟩ := descend_of_exec hq h
  obtain ⟨x, rs, hx, hf⟩ := records_of_descend ha
  rw [records_eq_append hq ha, hx]
  exact ⟨x, _, rfl, hf⟩

end State

end LineLogger
