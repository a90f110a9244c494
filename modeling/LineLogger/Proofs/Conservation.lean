import LineLogger.Proofs.Records

namespace LineLogger

namespace Record

def renews (l : LoggerId) : Record → Bool
  | .anew k => k = l
  | .call .. => false
  | .flush .. => false

/-- The records since a logger last began to count. -/
def since (l : LoggerId) (rs : List Record) : List Record := rs.rtakeWhile (fun r => !r.renews l)

def applied (l : LoggerId) (c : Counter) (n : UInt64) (r : Record) : UInt64 :=
  if r.renews l then 0 else n + added l c [r]

def isCall (l : LoggerId) : Record → Bool
  | .call k _ => k = l
  | .flush .. => false
  | .anew _ => false

def isFailedFlush (l : LoggerId) : Record → Bool
  | .flush k (some _) => k = l
  | .flush _ none => false
  | .call .. => false
  | .anew _ => false

variable {l : LoggerId} {c : Counter} {n : UInt64} {rs : List Record}

theorem foldl_applied (l : LoggerId) (c : Counter) (n : UInt64) (rs : List Record) :
    rs.foldl (applied l c) n =
      (if rs.any (·.renews l) then 0 else n) + added l c (since l rs) := by
  -- From the end, where `since` looks for the last renewal.
  induction rs using List.reverseRecOn with
  | nil => exact (UInt64.add_zero n).symm
  | append_singleton rs r ih =>
    rw [List.foldl_append, ih, List.any_append]
    change applied l c _ r = _
    cases hr : r.renews l with
    | true =>
      have hs : since l (rs ++ [r]) = [] := List.rtakeWhile_concat_neg _ _ _ (by simp [hr])
      simp [applied, hr, hs, added]
    | false =>
      have hs : since l (rs ++ [r]) = since l rs ++ [r] :=
        List.rtakeWhile_concat_pos _ _ _ (by simp [hr])
      rw [applied, hr, hs, added_append, ← UInt64.add_assoc]
      simp [hr]

theorem foldl_applied_lasting (h : ∀ r ∈ rs, ∀ l, r ≠ .anew l) (l : LoggerId) (c : Counter)
    (n : UInt64) : rs.foldl (applied l c) n = n + added l c rs := by
  have hr : ∀ r ∈ rs, r.renews l = false := by
    intro r hr
    cases r with
    | anew k => exact absurd rfl (h _ hr k)
    | call k x => rfl
    | flush k x => rfl
  have hs : since l rs = rs := List.rtakeWhile_eq_self_iff.mpr (by simpa using hr)
  rw [foldl_applied, hs, if_neg (by simpa using hr)]

theorem added_calls (l : LoggerId) (rs : List Record) :
    added l .written rs + added l .filtered rs + added l .writeFailure rs =
      .ofNat (rs.countP (·.isCall l)) := by
  have hn : rs.countP (·.isCall l) = rs.countP (·.counts l .written) +
      rs.countP (·.counts l .filtered) + rs.countP (·.counts l .writeFailure) := by
    induction rs with
    | nil => rfl
    | cons r rs ih =>
      have hr : (if r.isCall l then 1 else 0) = (if r.counts l .written then 1 else 0) +
          (if r.counts l .filtered then 1 else 0) +
          (if r.counts l .writeFailure then 1 else 0) := by
        cases r with
        | call k x =>
          by_cases hk : k = l
          · cases x <;> simp [isCall, counts, counted?, Fate.counter, hk]
          · simp [isCall, counts, counted?, hk]
        | flush k x => cases x <;> simp [isCall, counts, counted?]
        | anew k => rfl
      simp only [List.countP_cons, ih, hr]
      omega
  rw [hn, UInt64.ofNat_add, UInt64.ofNat_add]
  rfl

theorem added_flushFailure (l : LoggerId) (rs : List Record) :
    added l .flushFailure rs = .ofNat (rs.countP (·.isFailedFlush l)) := by
  have hr : ∀ r : Record, r.counts l .flushFailure = r.isFailedFlush l := by
    intro r
    cases r with
    | call k x => cases x <;> simp [isFailedFlush, counts, counted?, Fate.counter]
    | flush k x => cases x <;> simp [isFailedFlush, counts, counted?]
    | anew k => rfl
  simp only [added, hr]

end Record

namespace State

def stepRecords (s : Step) (w : State) : List Record :=
  match s with
  | .command c => w.records c
  | .create _ => [.anew w.loggers.size]

/-- All records of a run. A logger starts to count when it is created, and anew when it is reset. -/
def ledger (ss : List Step) (w : State) : List Record := gather step stepRecords ss w

variable {w u v : State} {c : Command} {r : Reply} {s : Step} {ss : List Step}
  {rs ts : List Record} {q : Call} {l : LoggerId}

structure Balances (w u : State) (rs : List Record) : Prop where
  tally : ∀ l c, u.tally l c = rs.foldl (Record.applied l c) (w.tally l c)
  journal : deeds u.journal = deeds w.journal ++ rs.flatMap (·.events)
  hooks : u.hooks = w.hooks

theorem Balances.refl (w : State) : Balances w w [] where
  tally _ _ := rfl
  journal := (List.append_nil _).symm
  hooks := rfl

theorem Balances.trans (h : Balances w u rs) (h' : Balances u v ts) : Balances w v (rs ++ ts) where
  tally l c := by
    rw [h'.tally, h.tally, List.foldl_append]
  journal := by
    rw [h'.journal, h.journal, List.flatMap_append, List.append_assoc]
  hooks := h'.hooks.trans h.hooks

theorem Accounts.balances (h : Accounts w u rs) : Balances w u rs where
  tally l c := by
    rw [h.tally, Record.foldl_applied_lasting h.lasting]
  journal := h.journal
  hooks := h.hooks

theorem tally_create (w : State) (b : Builder) (l : LoggerId) (c : Counter) :
    ({ w with loggers := w.loggers.add b.build } : State).tally l c =
      if l = w.loggers.size then 0 else w.tally l c := by
  rw [tally, logger, Store.get_add]
  split
  · exact Metrics.count_default c
  · rfl

theorem balances_step (hw : w.inHook = false) (hh : w.HooksKeepCounts) (h : w.step s = some u) :
    Balances w u (w.stepRecords s) ∧ u.inHook = false := by
  have ha : ∀ k l c, [Record.anew k].foldl (Record.applied l c) (w.tally l c) =
      if l = k then 0 else w.tally l c := by
    intro k l c
    by_cases hl : k = l
    · simp [Record.applied, Record.renews, hl]
    · simp [Record.applied, Record.renews, hl, Ne.symm hl, Record.added, Record.counts,
        Record.counted?]
  cases s with
  | create b =>
    cases h
    refine ⟨⟨fun l c => ?_, (List.append_nil _).symm, rfl⟩, hw⟩
    exact (tally_create w b l c).trans (ha _ l c).symm
  | command c =>
    obtain ⟨⟨x, r⟩, hx, rfl⟩ := Option.map_eq_some_iff.mp h
    -- A reset is the one command that starts counters anew and makes no call or flush.
    by_cases hr : ∃ k, c = .resetMetrics k
    · obtain ⟨k, rfl⟩ := hr
      cases hx
      refine ⟨⟨fun l c => ?_, (List.append_nil _).symm, rfl⟩, hw⟩
      exact (tally_reset w k l c).trans (ha k l c).symm
    · have hn : ∀ k, c ≠ .resetMetrics k := fun k hk => hr ⟨k, hk⟩
      exact ⟨(accounts_perform hw hh hn hx).balances, inHook_of_perform hw hx⟩

theorem balances_follow (hw : w.inHook = false) (hh : w.HooksKeepCounts)
    (h : w.follow ss = some u) :
    Balances w u (w.ledger ss) ∧ u.inHook = false ∧ u.HooksKeepCounts := by
  rw [follow_eq_foldlM] at h
  -- That no hook resets a counter is an invariant, because no step changes what hooks do.
  refine gather_rel (I := fun w => w.inHook = false ∧ w.HooksKeepCounts) Balances.refl
    Balances.trans (fun s _ w u hw h => ?_) ⟨hw, hh⟩ h
  obtain ⟨hb, hu⟩ := balances_step hw.1 hw.2 h
  exact ⟨hb, hu, hw.2.of_hooks hb.hooks⟩

def opening (w : State) (l : LoggerId) (c : Counter) (rs : List Record) : UInt64 :=
  if rs.any (·.renews l) then 0 else w.tally l c

/-- A raw call that is refused, a setting, or a flush that no sink on its way fails. -/
inductive Uncounted (w : State) : Command → Reply → Prop
  | refused (l : LoggerId) (n : Int32) (tagged : Bool) (m : Message) (e : Error) :
      Uncounted w (.logRaw l n tagged m) (.failed e)
  | setting (l : LoggerId) (s : Setting) (r : Reply) : Uncounted w (.set l s) r
  | flush (c : Command) (r : Reply) (hc : c.flushed?.isSome)
      (hn : ∀ l e, .flush l (some e) ∉ w.records c) : Uncounted w c r

theorem tally_of_uncounted (hw : w.inHook = false) (hh : w.HooksKeepCounts)
    (h : w.perform c = some (u, r)) (hc : w.Uncounted c r) (l : LoggerId) (d : Counter) :
    u.tally l d = w.tally l d := by
  cases hc with
  | refused k n tagged m e =>
    cases hr : resolve n tagged with
    | error e' =>
      simp only [perform, exec, hr] at h
      cases h
      rfl
    | ok p =>
      simp only [perform, exec, hr] at h
      obtain ⟨x, -, hx⟩ := Option.map_eq_some_iff.mp h
      cases hx
  | setting k s r =>
    obtain ⟨rfl, -⟩ := change_cases h
    exact tally_set w k l s d
  | flush c r hc hn =>
    obtain ⟨k, hk⟩ := Option.isSome_iff_exists.mp hc
    have hr : ∀ m, c ≠ .resetMetrics m := by
      rintro m rfl
      cases hk
    have hz : (w.records c).countP (·.counts l d) = 0 := by
      refine List.countP_eq_zero.mpr fun y hy hd => ?_
      have hf := hy
      rw [records_of_flush hk] at hf
      obtain ⟨m, x, rfl⟩ := flushRecords_flush hf
      cases x with
      | none => cases hd
      | some e => exact hn m e hy
    rw [(accounts_perform hw hh hr h).tally, Record.added, hz]
    exact UInt64.add_zero _

/-- Each counter reads what it read when its logger last began to count, plus what was recorded of
it since. Every call that reached the logger is in exactly one of the three counters of lines. -/
theorem calls_are_conserved (hw : w.inHook = false) (hh : w.HooksKeepCounts)
    (h : w.follow ss = some u) :
    (∀ l, (∀ c, u.tally l c = w.opening l c (w.ledger ss) +
          .ofNat ((Record.since l (w.ledger ss)).countP (·.counts l c))) ∧
        u.tally l .written + u.tally l .filtered + u.tally l .writeFailure =
          w.opening l .written (w.ledger ss) + w.opening l .filtered (w.ledger ss) +
            w.opening l .writeFailure (w.ledger ss) +
              .ofNat ((Record.since l (w.ledger ss)).countP (·.isCall l)) ∧
        u.tally l .flushFailure = w.opening l .flushFailure (w.ledger ss) +
          .ofNat ((Record.since l (w.ledger ss)).countP (·.isFailedFlush l))) ∧
      deeds u.journal = deeds w.journal ++ (w.ledger ss).flatMap (·.events) ∧
      ∀ c v r, u.perform c = some (v, r) →
        (∀ q, c.call? = some q → ∃ x rs, u.records c = .call q.logger x :: rs ∧
          (x = .filtered ↔ u.admits q = false)) ∧
        (∀ l, c = .flush l → ∃ rs x, u.records c = rs ++ [.flush l x] ∧ (r = .done ↔ x = none)) ∧
        (u.Uncounted c r → ∀ l d, v.tally l d = u.tally l d) := by
  obtain ⟨hb, hu, hk⟩ := balances_follow hw hh h
  have ht : ∀ l c, u.tally l c = w.opening l c (w.ledger ss) +
      Record.added l c (Record.since l (w.ledger ss)) := by
    intro l c
    rw [hb.tally, Record.foldl_applied]
    rfl
  refine ⟨fun l => ⟨ht l, ?_, ?_⟩, hb.journal, fun c v r hv => ⟨?_, ?_, ?_⟩⟩
  · rw [ht, ht, ht, ← Record.added_calls]
    ac_rfl
  · rw [ht, Record.added_flushFailure]
  · exact fun q hq => records_of_call hq hv
  · rintro l rfl
    exact perform_flush hv
  · exact fun hc => tally_of_uncounted hu hk hv hc

/-- Logger 0 filters a call and starts anew. Then it loses a line that logger 1 hands on, and one of
its own hook. -/
def lossy : List Step :=
  [.command (.debug 0 "fine"), .command (.resetMetrics 0), .command (.info 1 "up"), .create {},
    .command (.logRaw 0 (-1) false (.text "none")), .command (.flush 1)]

theorem lossy_counts_two_calls : ∃ u, failing.follow lossy = some u ∧
    u.tally 0 .written + u.tally 0 .filtered + u.tally 0 .writeFailure = 2 ∧
      u.tally 0 .writeFailure = 2 := by
  obtain ⟨u, hu⟩ : ∃ u, failing.follow lossy = some u := Option.isSome_iff_exists.mp (by cbv)
  have hh : failing.HooksKeepCounts := by
    rintro h e c hc k rfl
    cases hc with
    | tail _ hc => cases hc
  obtain ⟨hc, hs, -⟩ := (calls_are_conserved rfl hh hu).1 0
  refine ⟨u, hu, ?_, ?_⟩
  · rw [hs]
    cbv
  · rw [hc]
    cbv

end State

end LineLogger
