import LineLogger.Proofs.Moves

namespace LineLogger.Concurrent.Machine

variable {m₀ m n : Machine} {h : History} {act : Act} {i : Nat} {t t' : Thread} {r : Request}
  {rs : List Request}

structure Fresh (m : Machine) : Prop where
  owner : m.owner = none
  idle : ∀ t ∈ m.threads, t.phase = .idle

/-- How far the call is that has the lock. -/
inductive Stage (m₀ m : Machine) (h : History) : Prop
  | free (hc : h.current = none) (hp : h.part = [])
      (hk : m.clock = m₀.clock.ticked h.done.length)
  | locked (c : Turn) (rs : List Request) (hc : h.current = some c) (hp : h.part = [])
      (hk : m.clock = m₀.clock.ticked h.done.length)
      (ht : m.threads[c.thread]? = some ⟨rs, .locked c.request⟩)
  | writing (c : Turn) (rs : List Request) (rest : Bytes) (hc : h.current = some c)
      (hp : h.part ++ rest = m₀.turnLine h.done.length c.request)
      (hk : m.clock = m₀.clock.ticked (h.done.length + 1))
      (ht : m.threads[c.thread]? = some ⟨rs, .writing rest⟩)

/-- What holds at every moment of a run from `m₀`: only the owner of the lock is inside, its line
follows the complete ones in the sink, and every thread has its calls in order. -/
structure Orderly (m₀ m : Machine) (h : History) : Prop where
  logger : ∃ x, m.logger = { m₀.logger with metrics := x }
  sink : m.sink = m₀.sink ++ m₀.output h.done ++ h.part
  owner : m.owner = h.current.map (·.thread)
  inside : ∀ i t, m.threads[i]? = some t → t.phase.inside = true → m.owner = some i
  turns : ∀ i t, m.threads[i]? = some t →
    requestsOf i h.turns ++ t.accepted m₀.logger = m₀.acceptedOf i
  stage : Stage m₀ m h

theorem Orderly.holder (ho : Orderly m₀ m h) (ht : m.threads[i]? = some t)
    (hi : t.phase.inside = true) : ∃ r, h.current = some ⟨i, r⟩ ∧
      (t.phase = .locked r ∧ h.part = [] ∧ m.clock = m₀.clock.ticked h.done.length ∨
        ∃ rest, t.phase = .writing rest ∧ h.part ++ rest = m₀.turnLine h.done.length r ∧
          m.clock = m₀.clock.ticked (h.done.length + 1)) := by
  have hc := ho.owner.symm.trans (ho.inside i t ht hi)
  obtain ⟨⟨k, r⟩, hk, rfl⟩ := Option.map_eq_some_iff.mp hc
  refine ⟨r, hk, ?_⟩
  cases ho.stage with
  | free hn => cases hk.symm.trans hn
  | locked c rs hn hp hq hs =>
    cases hk.symm.trans hn
    cases hs.symm.trans ht
    exact .inl ⟨rfl, hp, hq⟩
  | writing c rs rest hn hp hq hs =>
    cases hk.symm.trans hn
    cases hs.symm.trans ht
    exact .inr ⟨rest, rfl, hp, hq⟩

theorem Orderly.admits (ho : Orderly m₀ m h) (r : Request) :
    m₀.logger.admits r.level = m.logger.admits r.level := by
  obtain ⟨x, hx⟩ := ho.logger
  rw [hx]
  rfl

theorem Orderly.lineNow (ho : Orderly m₀ m h) {k : Nat} (hk : m.clock = m₀.clock.ticked k)
    (r : Request) : m.lineNow r = m₀.turnLine k r := by
  obtain ⟨x, hx⟩ := ho.logger
  rw [Machine.lineNow, hx, hk, turnLine]
  rfl

theorem Orderly.turns_setThread (ho : Orderly m₀ m h) (ht : m.threads[i]? = some t)
    (ha : t'.accepted m₀.logger = t.accepted m₀.logger) :
    ∀ j s, (m.setThread i t').threads[j]? = some s →
      requestsOf j h.turns ++ s.accepted m₀.logger = m₀.acceptedOf j := by
  refine forall_setThread ?_ fun j s _ hs => ho.turns j s hs
  rw [ha]
  exact ho.turns i t ht

theorem Orderly.inside_setThread (ho : Orderly m₀ m h) (ht : m.threads[i]? = some t)
    (hi : t.phase.inside = true) : ∀ j s, (m.setThread i t').threads[j]? = some s →
      s.phase.inside = true → m.owner = some j :=
  forall_setThread (fun _ => ho.inside i t ht hi) fun j s _ hs => ho.inside j s hs

theorem Orderly.outside (ho : Orderly m₀ m h) (ht : m.threads[i]? = some t)
    (hi : t.phase.inside = false) (hi' : t'.phase.inside = false)
    (ha : t'.accepted m₀.logger = t.accepted m₀.logger) (x : Metrics) :
    Orderly m₀ ({ m with logger := { m.logger with metrics := x } }.setThread i t') h where
  logger := by
    obtain ⟨y, hy⟩ := ho.logger
    exact ⟨x, by rw [setThread, hy]⟩
  sink := ho.sink
  owner := ho.owner
  inside := by
    refine forall_setThread (fun hs => ?_) fun j s _ hs => ho.inside j s hs
    rw [hi'] at hs
    cases hs
  turns := ho.turns_setThread ht ha
  stage := by
    have hn : ∀ k s, m.threads[k]? = some s → s.phase.inside = true → k ≠ i := by
      rintro k s hs hk rfl
      cases hs.symm.trans ht
      rw [hi] at hk
      cases hk
    cases ho.stage with
    | free hc hp hk => exact .free hc hp hk
    | locked c rs hc hp hk hs =>
      exact .locked c rs hc hp hk ((getElem?_setThread_of_ne (hn _ _ hs rfl) t').trans hs)
    | writing c rs rest hc hp hk hs =>
      exact .writing c rs rest hc hp hk ((getElem?_setThread_of_ne (hn _ _ hs rfl) t').trans hs)

theorem Orderly.acquire (ho : Orderly m₀ m h) (ht : m.threads[i]? = some ⟨rs, .waiting r⟩)
    (hn : m.owner = none) : Orderly m₀ ({ m with owner := some i }.setThread i ⟨rs, .locked r⟩)
      (h.after i (.acquire r)) := by
  have hc : h.current = none := Option.map_eq_none_iff.mp (ho.owner.symm.trans hn)
  have hd : (h.after i (.acquire r)).turns = h.turns ++ [⟨i, r⟩] := by
    rw [History.turns_of_none hc]
    rfl
  refine ⟨ho.logger, ho.sink, rfl, ?_, ?_, ?_⟩
  · -- Nobody else is inside, because the lock was free.
    refine forall_setThread (fun _ => rfl) fun j s _ hs hj => ?_
    cases hn.symm.trans (ho.inside j s hs hj)
  · rw [hd]
    refine forall_setThread ?_ fun j s hj hs => ?_
    · rw [requestsOf_concat, if_pos rfl, List.append_assoc]
      exact ho.turns i _ ht
    · rw [requestsOf_concat, if_neg hj.symm, List.append_nil]
      exact ho.turns j s hs
  · cases ho.stage with
    | free _ hp hk => exact .locked ⟨i, r⟩ rs rfl hp hk (getElem?_setThread ht _)
    | locked c _ hc' => cases hc.symm.trans hc'
    | writing c _ _ hc' => cases hc.symm.trans hc'

theorem Orderly.render (ho : Orderly m₀ m h) (ht : m.threads[i]? = some ⟨rs, .locked r⟩) :
    Orderly m₀ ({ m with clock := m.clock.tick }.setThread i ⟨rs, .writing (m.lineNow r)⟩) h := by
  obtain ⟨r', hc, ⟨hl, hp, hk⟩ | ⟨rest, hw, -⟩⟩ := ho.holder ht rfl
  · cases hl
    have hn : h.part ++ m.lineNow r = m₀.turnLine h.done.length r := by
      rw [hp, ho.lineNow hk, List.nil_append]
    have hk' : m.clock.tick = m₀.clock.ticked (h.done.length + 1) := congrArg (·.tick) hk
    refine ⟨ho.logger, ho.sink, ho.owner, ho.inside_setThread ht rfl, ho.turns_setThread ht rfl, ?_⟩
    exact .writing ⟨i, r⟩ rs (m.lineNow r) hc hn hk' (getElem?_setThread ht _)
  · cases hw

theorem Orderly.write {b rest : Bytes} (ho : Orderly m₀ m h)
    (ht : m.threads[i]? = some ⟨rs, .writing (b ++ rest)⟩) :
    Orderly m₀ ({ m with sink := m.sink ++ b }.setThread i ⟨rs, .writing rest⟩)
      (h.after i (.write b)) := by
  obtain ⟨r, hc, ⟨hl, -⟩ | ⟨rest', hw, hp, hk⟩⟩ := ho.holder ht rfl
  · cases hl
  · cases hw
    refine ⟨ho.logger, ?_, ho.owner, ho.inside_setThread ht rfl, ho.turns_setThread ht rfl, ?_⟩
    · exact (congrArg (· ++ b) ho.sink).trans (List.append_assoc ..)
    · refine .writing ⟨i, r⟩ rs rest hc ?_ hk (getElem?_setThread ht _)
      exact (List.append_assoc ..).trans hp

theorem Orderly.release (ho : Orderly m₀ m h) (ht : m.threads[i]? = some ⟨rs, .writing []⟩) :
    Orderly m₀ ({ m with owner := none }.setThread i ⟨rs, .unlocked⟩) (h.after i .release) := by
  have hi := ho.inside i _ ht rfl
  obtain ⟨r, hc, ⟨hl, -⟩ | ⟨rest', hw, hp, hk⟩⟩ := ho.holder ht rfl
  · cases hl
  · cases hw
    have hd := History.turns_of_some hc
    have ht' : (h.after i .release).turns = h.turns := List.append_nil _
    refine ⟨ho.logger, ?_, rfl, ?_, ht' ▸ ho.turns_setThread ht rfl, .free rfl rfl ?_⟩
    · -- No byte of the line is left, so it joins the complete ones.
      change m.sink = m₀.sink ++ m₀.output h.turns ++ []
      rw [hd, output_concat, ← hp, ho.sink]
      simp
    · refine forall_setThread (fun hj => by cases hj) fun j s hj hs hn => ?_
      cases hi.symm.trans (ho.inside j s hs hn)
      exact absurd rfl hj
    · change m.clock = m₀.clock.ticked h.turns.length
      rw [hk, hd, List.length_append]
      rfl

theorem Orderly.move (ho : Orderly m₀ m h) (hm : Move m i act n) :
    Orderly m₀ n (h.after i act) := by
  cases hm with
  | filter r rs ht hr =>
    refine ho.outside ht rfl rfl ?_ (m.logger.metrics.record .filtered)
    simp [Thread.accepted, Phase.pending, ho.admits, hr]
  | accept r rs ht hr =>
    refine ho.outside ht rfl rfl ?_ m.logger.metrics
    simp [Thread.accepted, Phase.pending, ho.admits, hr]
  | acquire r rs ht hn => exact ho.acquire ht hn
  | render r rs ht => exact ho.render ht
  | write b rest rs hb ht => exact ho.write ht
  | release rs ht => exact ho.release ht
  | count rs ht =>
    refine ho.outside ht rfl rfl ?_ (m.logger.metrics.record .written)
    rfl

/-- How many calls there are of each kind, at every moment of a run from `m₀`. -/
structure Tallied (m₀ m : Machine) (h : History) : Prop where
  threads : m.threads.length = m₀.threads.length
  members : ∀ c ∈ h.turns, c.thread < m₀.threads.length
  calls : h.turns.length + m.total (fun t => (t.accepted m₀.logger).length) =
    m₀.total (fun t => (t.accepted m₀.logger).length)
  written : ∃ k, m.tally .written = m₀.tally .written + .ofNat k ∧
    k + m.total (·.phase.uncounted) = h.done.length
  filtered : ∃ k, m.tally .filtered = m₀.tally .filtered + .ofNat k ∧
    k + m.total (·.refused m₀.logger) = m₀.total (·.refused m₀.logger)

theorem Tallied.setThread {h' : History} {u v : Nat} (hT : Tallied m₀ m h)
    (ht : m.threads[i]? = some t) (hn : n.threads = (m.setThread i t').threads)
    (hm : ∀ c ∈ h'.turns, c.thread < m₀.threads.length)
    (hc : h'.turns.length + (t'.accepted m₀.logger).length =
      h.turns.length + (t.accepted m₀.logger).length)
    (hw : n.tally .written = m.tally .written + .ofNat u)
    (hu : h.done.length + (u + t'.phase.uncounted) = h'.done.length + t.phase.uncounted)
    (hf : n.tally .filtered = m.tally .filtered + .ofNat v)
    (hv : t'.refused m₀.logger + v = t.refused m₀.logger) : Tallied m₀ n h' := by
  obtain ⟨a, ha, ha'⟩ := hT.written
  obtain ⟨b, hb, hb'⟩ := hT.filtered
  have ht' : ∀ f, n.total f + f t = m.total f + f t' := by
    intro f
    rw [total, hn]
    exact total_setThread f ht t'
  have h₁ := ht' (fun t => (t.accepted m₀.logger).length)
  have h₂ := ht' (·.phase.uncounted)
  have h₃ := ht' (·.refused m₀.logger)
  have h₄ := hT.calls
  refine ⟨?_, hm, by omega, ⟨a + u, ?_, by omega⟩, ⟨b + v, ?_, by omega⟩⟩
  · rw [hn, Machine.setThread, List.length_set, hT.threads]
  · rw [hw, ha, UInt64.ofNat_add, UInt64.add_assoc]
  · rw [hf, hb, UInt64.ofNat_add, UInt64.add_assoc]

theorem Tallied.move (hT : Tallied m₀ m h) (ho : Orderly m₀ m h) (hm : Move m i act n) :
    Tallied m₀ n (h.after i act) := by
  have hz : ∀ c, m.tally c = m.tally c + .ofNat 0 := fun c => (UInt64.add_zero _).symm
  cases hm with
  | filter r rs ht hr =>
    refine hT.setThread ht rfl hT.members ?_ (hz .written) rfl (v := 1) rfl ?_
    · simp [History.after, Thread.accepted, Phase.pending, ho.admits, hr]
    · simp [Thread.refused, ho.admits, hr]
  | accept r rs ht hr =>
    refine hT.setThread ht rfl hT.members ?_ (hz .written) rfl (hz .filtered) ?_
    · simp [History.after, Thread.accepted, Phase.pending, ho.admits, hr]
    · simp [Thread.refused, ho.admits, hr]
  | acquire r rs ht hn =>
    have hc : h.current = none := Option.map_eq_none_iff.mp (ho.owner.symm.trans hn)
    obtain ⟨hi, -⟩ := List.getElem?_eq_some_iff.mp ht
    -- What was an accepted request of the thread is now the current turn: the sum stays.
    refine hT.setThread ht rfl ?_ ?_ (hz .written) rfl (hz .filtered) rfl
    · intro c hm
      obtain hm | hm := List.mem_append.mp hm
      · exact hT.members c (List.mem_append_left _ hm)
      · cases List.mem_singleton.mp hm
        exact hT.threads ▸ hi
    · simp only [History.after, History.turns, Thread.accepted, Phase.pending, hc,
        List.length_append, Option.toList_some, Option.toList_none, List.length_singleton,
        List.length_nil, List.nil_append]
      omega
  | render r rs ht => exact hT.setThread ht rfl hT.members rfl (hz .written) rfl (hz .filtered) rfl
  | write b rest rs hb ht =>
    exact hT.setThread ht rfl hT.members rfl (hz .written) rfl (hz .filtered) rfl
  | release rs ht =>
    obtain ⟨r, hc, -⟩ := ho.holder ht rfl
    have hd : (h.after i .release).turns = h.turns := List.append_nil _
    have hl : h.turns.length = h.done.length + 1 := by
      rw [History.turns_of_some hc]
      exact List.length_append
    refine hT.setThread ht rfl (hd ▸ hT.members) ?_ (hz .written) hl.symm (hz .filtered) rfl
    rw [hd]
    rfl
  | count rs ht =>
    exact hT.setThread ht rfl hT.members rfl (u := 1) rfl rfl (hz .filtered) rfl

theorem Fresh.orderly (hf : Fresh m) : Orderly m m {} where
  logger := ⟨m.logger.metrics, rfl⟩
  sink := by simp [output]
  owner := hf.owner
  inside i t ht hi := by
    rw [hf.idle t (List.mem_of_getElem? ht)] at hi
    cases hi
  turns i t ht := by
    rw [acceptedOf, ht]
    rfl
  stage := .free rfl rfl rfl

theorem Fresh.tallied (hf : Fresh m) : Tallied m m {} where
  threads := rfl
  members c hc := by cases hc
  calls := Nat.zero_add _
  written := by
    refine ⟨0, (UInt64.add_zero _).symm, ?_⟩
    rw [Nat.zero_add]
    refine total_eq_zero fun t ht => ?_
    rw [hf.idle t ht]
    rfl
  filtered := ⟨0, (UInt64.add_zero _).symm, Nat.zero_add _⟩

theorem orderly_run {s : List (Nat × Nat)} (ho : Orderly m₀ m h) (hT : Tallied m₀ m h)
    (hs : m.run? s = some n) : ∃ h', Orderly m₀ n h' ∧ Tallied m₀ n h' := by
  induction s generalizing m h with
  | nil =>
    cases hs
    exact ⟨h, ho, hT⟩
  | cons p s ih =>
    obtain ⟨i, part⟩ := p
    rw [run?] at hs
    split at hs
    · cases hs
    · next k hk =>
      obtain ⟨act, hm⟩ := move_of_step hk
      exact ih (ho.move hm) (hT.move ho hm) hs

theorem isDone_iff : m.isDone = true ↔ ∀ t ∈ m.threads, t = ⟨[], .idle⟩ := by
  rw [isDone, List.all_eq_true]
  refine forall₂_congr fun t _ => ?_
  obtain ⟨_ | ⟨r, rs⟩, _ | _ | _ | _ | _⟩ := t <;> simp

/-- The thread that has the lock can go on. If there is none, every other thread can. -/
theorem Orderly.exists_move (ho : Orderly m₀ m h) (hd : m.isDone = false) :
    ∃ i act n, Move m i act n := by
  cases ho.stage with
  | locked c rs hc hp hk ht => exact ⟨_, _, _, .render c.request rs ht⟩
  | writing c rs rest hc hp hk ht =>
    cases rest with
    | nil => exact ⟨_, _, _, .release rs ht⟩
    | cons b bs =>
      rw [← List.append_nil (b :: bs)] at ht
      exact ⟨_, _, _, .write (b :: bs) [] rs (List.cons_ne_nil b bs) ht⟩
  | free hc hp hk =>
    have hn : m.owner = none := by
      rw [ho.owner, hc]
      rfl
    -- Nobody has the lock, so any thread with work left can take its next step.
    have ht : ∃ t ∈ m.threads, t ≠ ⟨[], .idle⟩ := by
      by_contra hall
      push Not at hall
      rw [isDone_iff.mpr hall] at hd
      cases hd
    obtain ⟨⟨todo, phase⟩, hm, ht⟩ := ht
    obtain ⟨i, hi⟩ := List.getElem?_of_mem hm
    cases phase with
    | idle =>
      cases todo with
      | nil => exact absurd rfl ht
      | cons r rs =>
        cases ha : m.logger.admits r.level with
        | true => exact ⟨_, _, _, .accept r rs hi ha⟩
        | false => exact ⟨_, _, _, .filter r rs hi ha⟩
    | waiting r => exact ⟨_, _, _, .acquire r todo hi hn⟩
    | locked r => cases hn.symm.trans (ho.inside i _ hi rfl)
    | writing rest => cases hn.symm.trans (ho.inside i _ hi rfl)
    | unlocked => exact ⟨_, _, _, .count todo hi⟩

theorem Tallied.requestsOf_eq_nil (hT : Tallied m₀ m h) (hi : m.threads[i]? = none) :
    requestsOf i h.turns = [] ∧ m₀.acceptedOf i = [] := by
  have hi' : m₀.threads.length ≤ i := hT.threads ▸ List.getElem?_eq_none_iff.mp hi
  refine ⟨?_, ?_⟩
  · have hc : ∀ c ∈ h.turns, c.thread ≠ i := fun c hc => ne_of_lt ((hT.members c hc).trans_le hi')
    have hn : h.turns.filter (·.thread = i) = [] := by
      refine List.filter_eq_nil_iff.mpr fun c hm => ?_
      simpa using hc c hm
    rw [requestsOf, hn]
    rfl
  · rw [acceptedOf, List.getElem?_eq_none hi']
    rfl

theorem Orderly.finished (ho : Orderly m₀ m h) (hT : Tallied m₀ m h) (hd : m.isDone = true) :
    h.current = none ∧ (∀ i, requestsOf i h.done = m₀.acceptedOf i) ∧
      h.done.length = m₀.total (fun t => (t.accepted m₀.logger).length) ∧
      m.tally .written = m₀.tally .written + .ofNat h.done.length ∧
      m.tally .filtered = m₀.tally .filtered + .ofNat (m₀.total (·.refused m₀.logger)) := by
  have ht := isDone_iff.mp hd
  have hi : ∀ i (t : Thread), m.threads[i]? = some t → t = ⟨[], .idle⟩ :=
    fun i t hs => ht t (List.mem_of_getElem? hs)
  have hc : h.current = none := by
    cases ho.stage with
    | free hc => exact hc
    | locked c rs hc hp hk hs => cases hi _ _ hs
    | writing c rs rest hc hp hk hs => cases hi _ _ hs
  have hu := History.turns_of_none hc
  have hz : ∀ f : Thread → Nat, f ⟨[], .idle⟩ = 0 → m.total f = 0 :=
    fun f hf => total_eq_zero fun t hm => (congrArg f (ht t hm)).trans hf
  obtain ⟨a, ha, ha'⟩ := hT.written
  obtain ⟨b, hb, hb'⟩ := hT.filtered
  have hl := hT.calls
  rw [hz _ rfl] at hl ha' hb'
  refine ⟨hc, fun i => ?_, ?_, ?_, ?_⟩
  · cases hs : m.threads[i]? with
    | some t =>
      have hr := ho.turns i t hs
      rw [hi i t hs, hu] at hr
      rw [← hr]
      exact (List.append_nil _).symm
    | none =>
      obtain ⟨hr, he⟩ := hT.requestsOf_eq_nil hs
      rw [← hu, hr, he]
  · rw [← hl, hu]
    rfl
  · rw [ha, ← ha']
    rfl
  · rw [hb, ← hb']
    rfl

/-- At every moment the sink has the whole lines of the calls done with the lock, in its order, and
the beginning of the current one. In the end these are all accepted calls, each once. -/
theorem lines_stay_whole {s : List (Nat × Nat)} (hf : m₀.Fresh) (hs : m₀.run? s = some m) :
    ∃ h : History,
      m.sink = m₀.sink ++ m₀.output h.done ++ h.part ∧
      m.owner = h.current.map (·.thread) ∧
      (h.current = none → h.part = []) ∧
      (∀ c, h.current = some c → h.part <+: m₀.turnLine h.done.length c.request) ∧
      (∀ i t, m.threads[i]? = some t →
        requestsOf i h.turns ++ t.accepted m₀.logger = m₀.acceptedOf i) ∧
      (∀ c ∈ h.turns, c.thread < m₀.threads.length) ∧
      (m.isDone = true → h.current = none ∧ (∀ i, requestsOf i h.done = m₀.acceptedOf i) ∧
        h.done.length = m₀.total (fun t => (t.accepted m₀.logger).length) ∧
        m.tally .written = m₀.tally .written + .ofNat h.done.length ∧
        m.tally .filtered = m₀.tally .filtered + .ofNat (m₀.total (·.refused m₀.logger))) ∧
      (m.isDone = false → ∃ i part n, m.step? i part = some n) := by
  obtain ⟨h, ho, hT⟩ := orderly_run hf.orderly hf.tallied hs
  refine ⟨h, ho.sink, ho.owner, fun hc => ?_, fun c hc => ?_, ho.turns, hT.members,
    ho.finished hT, fun hd => ?_⟩
  · cases ho.stage with
    | free _ hp => exact hp
    | locked c _ hc' => cases hc.symm.trans hc'
    | writing c _ _ hc' => cases hc.symm.trans hc'
  · cases ho.stage with
    | free hc' => cases hc.symm.trans hc'
    | locked c' _ _ hp =>
      rw [hp]
      exact List.nil_prefix
    | writing c' _ rest hc' hp =>
      cases hc.symm.trans hc'
      exact ⟨rest, hp⟩
  · obtain ⟨i, act, n, hm⟩ := ho.exists_move hd
    obtain ⟨part, hn⟩ := step_of_move hm
    exact ⟨i, part, n, hn⟩

def duet : Machine :=
  { logger := { timeFormat := ⟨"%H"⟩ }
    clock := .fixed ⟨0, 0, 0⟩
    threads := [⟨[⟨0, none, "a"⟩, ⟨2, none, "x"⟩], .idle⟩, ⟨[⟨0, none, "b"⟩], .idle⟩] }

def overtaking : List (Nat × Nat) :=
  [(0, 0), (1, 0), (1, 0), (1, 0), (1, 2), (1, 9), (1, 0), (0, 0), (0, 0), (0, 9), (1, 0), (0, 0),
    (0, 0), (0, 0)]

theorem duet_writes_two_lines : ∃ (m : Machine) (h : History), duet.run? overtaking = some m ∧
    m.sink = duet.output h.done ++ h.part ∧ requestsOf 0 h.done = [⟨0, none, "a"⟩] ∧
      requestsOf 1 h.done = [⟨0, none, "b"⟩] ∧ m.tally .written = 2 ∧ m.tally .filtered = 1 := by
  have hr : (duet.run? overtaking).map (·.isDone) = some true := by cbv
  obtain ⟨m, hm, hd⟩ := Option.map_eq_some_iff.mp hr
  have hf : duet.Fresh := ⟨rfl, by simp [duet]⟩
  obtain ⟨h, hs, -, -, -, -, -, he, -⟩ := lines_stay_whole hf hm
  obtain ⟨-, hq, hl, hw, hc⟩ := he hd
  refine ⟨m, h, hm, hs, hq 0, hq 1, ?_, hc⟩
  rw [hw, hl]
  rfl

end LineLogger.Concurrent.Machine
