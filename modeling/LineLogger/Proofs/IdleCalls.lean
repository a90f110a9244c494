import LineLogger.Proofs.Simulation
import LineLogger.Proofs.ChainDelivery

namespace LineLogger

def Event.isArrival : Event → Bool
  | .reached _ => true
  | .lost .. => false
  | .flushed .. => false
  | .hookBegan .. => false
  | .hookEnded _ => false

/-- What is done to one command of a run. -/
inductive Edit
  | keep
  | drop
  | alter (c : Command)

def Edit.apply : Edit → Command → Option Command
  | .keep, c => some c
  | .drop, _ => none
  | .alter d, _ => some d

def edited (es : List (Command × Edit)) : List Command := es.filterMap fun p => p.2.apply p.1

def SameReplies : List Edit → List Reply → List Reply → Prop
  | [], [], [] => True
  | .keep :: es, r :: rs, s :: ss => r = s ∧ SameReplies es rs ss
  | .drop :: es, _ :: rs, ss => SameReplies es rs ss
  | .alter _ :: es, _ :: rs, _ :: ss => SameReplies es rs ss
  | _, _, _ => False

namespace State

/-- Two states that differ at most in what was filtered. -/
structure Alike (w u : State) : Prop extends Shares w u where
  tally : ∀ l c, c ≠ .filtered → u.tally l c = w.tally l c
  formatted : u.formatted = w.formatted
  journal : u.journal.filter (!·.isArrival) = w.journal.filter (!·.isArrival)

namespace Alike

variable {w u v : State}

theorem refl (w : State) : Alike w w :=
  ⟨⟨rfl, fun l => ⟨(w.logger l).metrics, rfl⟩, rfl, rfl, rfl, rfl⟩, fun _ _ _ => rfl, rfl, rfl⟩

theorem symm (h : Alike w u) : Alike u w :=
  ⟨h.toShares.symm, fun l c hc => (h.tally l c hc).symm, h.formatted.symm, h.journal.symm⟩

theorem trans (h : Alike w u) (h' : Alike u v) : Alike w v :=
  ⟨h.toShares.trans h'.toShares, fun l c hc => (h'.tally l c hc).trans (h.tally l c hc),
    h'.formatted.trans h.formatted, h'.journal.trans h.journal⟩

theorem modifyLogger {g : Logger → Logger} (h : Alike w u) (l : LoggerId)
    (hg : ∀ x m, ∃ n, g { x with metrics := m } = { g x with metrics := n })
    (ht : ∀ k c, c ≠ .filtered →
      (u.modifyLogger l g).tally k c = (w.modifyLogger l g).tally k c) :
    Alike (w.modifyLogger l g) (u.modifyLogger l g) :=
  ⟨h.toShares.modifyLogger l hg, ht, h.formatted, h.journal⟩

end Alike

theorem simulation_alike : Simulation Alike where
  shares h := h.toShares
  note e h := ⟨⟨h.size, h.loggers, h.clocks, h.outlets, h.hooks, h.inHook⟩, h.tally, h.formatted, by
    rw [journal_note, journal_note, List.filter_append, List.filter_append, h.journal]⟩
  count {w u} l d h := h.modifyLogger l (fun x m => ⟨m.record d, rfl⟩) fun k c hc => by
    change (u.count l d).tally k c = (w.count l d).tally k c
    rw [tally_count, tally_count, h.tally k c hc]
  format h := ⟨⟨h.size, h.loggers, h.clocks, h.outlets, h.hooks, h.inHook⟩, h.tally,
    congrArg (· + 1) h.formatted, h.journal⟩
  set l s h := h.modifyLogger l (fun x m => ⟨m, by cases s <;> rfl⟩) fun k c hc => by
    rw [tally_set, tally_set, h.tally k c hc]
  reset l h := h.modifyLogger l (fun x m => ⟨{}, rfl⟩) fun k c hc => by
    rw [tally_reset, tally_reset, h.tally k c hc]
  clocks c h := ⟨⟨h.size, h.loggers, rfl, h.outlets, h.hooks, h.inHook⟩, h.tally, h.formatted,
    h.journal⟩
  outlets o h := ⟨⟨h.size, h.loggers, h.clocks, rfl, h.hooks, h.inHook⟩, h.tally, h.formatted,
    h.journal⟩
  inHook b h := ⟨⟨h.size, h.loggers, h.clocks, h.outlets, h.hooks, rfl⟩, h.tally, h.formatted,
    h.journal⟩

/-- Whether a command is a logging call that is refused, or that its logger filters. -/
def idle (w : State) (c : Command) : Bool :=
  match c.call? with
  | some q => !w.admits q
  | none =>
    match c with
    | .logRaw .. => true
    | _ => false

variable {w u v : State} {c d : Command} {q : Call} {e : Edit} {cs : List Command}
  {es before after : List (Command × Edit)}

theorem alike_filtered (w : State) (l : LoggerId) :
    Alike w ((w.note (.reached l)).count l .filtered) where
  size := rfl
  loggers k := by
    rw [logger_count]
    split
    · exact ⟨_, rfl⟩
    · exact ⟨_, rfl⟩
  clocks := rfl
  outlets := rfl
  hooks := rfl
  inHook := rfl
  tally k c hc := by
    rw [tally_count, if_neg (fun h => hc h.2.symm), UInt64.add_zero]
    rfl
  formatted := rfl
  journal := by
    change (w.journal ++ [Event.reached l]).filter _ = _
    rw [List.filter_append]
    exact List.append_nil _

theorem perform_of_filtered (hq : c.call? = some q) (ha : w.admits q = false) :
    ∃ u, w.perform c = some (u, c.reply) ∧ Alike w u := by
  rw [perform, exec_of_call hq, submitCall_of_not_admits ha]
  exact ⟨_, rfl, alike_filtered w q.logger⟩

theorem perform_of_idle (h : w.idle c = true) : ∃ u r, w.perform c = some (u, r) ∧ Alike w u := by
  cases hq : c.call? with
  | some q =>
    simp only [idle, hq, Bool.not_eq_true'] at h
    obtain ⟨u, hu, ha⟩ := perform_of_filtered hq h
    exact ⟨u, _, hu, ha⟩
  | none =>
    cases c with
    | logRaw l n tagged m =>
      obtain ⟨e, he⟩ := resolve_of_raw?_none hq
      exact ⟨w, .failed e, by simp only [perform, exec, he], .refl w⟩
    | _ => simp [idle, hq] at h

/-- Idle calls may be left out, and a filtered call may be replaced by another one that its logger
filters as well. -/
def Allows (w : State) (c : Command) : Edit → Prop
  | .keep => True
  | .drop => w.idle c = true
  | .alter d => ∃ q p, c.call? = some q ∧ d.call? = some p ∧ p.logger = q.logger ∧
      p.level = q.level ∧ w.admits q = false

def Permits : List (Command × Edit) → State → Prop
  | [], _ => True
  | (c, e) :: es, w => w.Allows c e ∧ ∀ u r, w.perform c = some (u, r) → Permits es u

def withoutIdle : List Command → State → List (Command × Edit)
  | [], _ => []
  | c :: cs, w => (c, if w.idle c then .drop else .keep) ::
      match w.perform c with
      | none => cs.map (·, .keep)
      | some (u, _) => withoutIdle cs u

theorem permits_withoutIdle (cs : List Command) (w : State) : Permits (w.withoutIdle cs) w := by
  induction cs generalizing w with
  | nil => trivial
  | cons c cs ih =>
    refine ⟨?_, fun u r hu => ?_⟩
    · cases h : w.idle c with
      | true => exact h
      | false => trivial
    · rw [hu]
      exact ih u

theorem commands_withoutIdle (cs : List Command) (w : State) :
    (w.withoutIdle cs).map (·.1) = cs := by
  induction cs generalizing w with
  | nil => rfl
  | cons c cs ih =>
    rw [withoutIdle, List.map_cons]
    congr 1
    split
    · rw [List.map_map]
      exact List.map_id cs
    · exact ih _

theorem permits_append (h : Permits (before ++ after) w) : Permits before w := by
  induction before generalizing w with
  | nil => trivial
  | cons p es ih =>
    obtain ⟨c, e⟩ := p
    exact ⟨h.1, fun u r hu => ih (h.2 u r hu)⟩

abbrev Corresponds (es : List (Command × Edit)) :
    Option (State × List Reply) → Option (State × List Reply) → Prop :=
  Option.Rel (fun p q => Alike p.1 q.1 ∧ SameReplies (es.map (·.2)) p.2 q.2)

theorem corresponds_performAll (h : Alike w u) (hp : Permits es w) :
    Corresponds es (w.performAll (es.map (·.1))) (u.performAll (edited es)) := by
  induction es generalizing w u with
  | nil => exact .some ⟨h, trivial⟩
  | cons p es ih =>
    obtain ⟨c, e⟩ := p
    obtain ⟨ha, hp⟩ := hp
    cases e with
    | keep =>
      have hc := simulation_alike.perform h c
      have hd : edited ((c, .keep) :: es) = c :: edited es := rfl
      rw [hd, List.map_cons, performAll, performAll]
      generalize hx : w.perform c = x at hc
      generalize u.perform c = y at hc
      cases hc with
      | some hc => exact rel_map (ih hc.1 (hp _ _ hx)) (fun p q hr => ⟨hr.1, hc.2, hr.2⟩)
      | none => exact .none
    | drop =>
      -- Only the longer run takes a step here, and it ends in a state that is alike.
      obtain ⟨v, r, hv, hw⟩ := perform_of_idle ha
      have hr := ih (hw.symm.trans h) (hp v r hv)
      have hd : edited ((c, .drop) :: es) = edited es := rfl
      have hm := rel_map (f := fun p => (p.1, r :: p.2)) (g := id) hr
        (s := fun p q => Alike p.1 q.1 ∧ SameReplies (.drop :: es.map (·.2)) p.2 q.2)
        (fun p q hr => hr)
      rw [Option.map_id] at hm
      rw [hd, List.map_cons, performAll, hv]
      exact hm
    | alter d =>
      obtain ⟨q, p, hq, hd, hl, hn, hf⟩ := ha
      have hf' : u.admits p = false := by
        rw [simulation_alike.admits h, State.admits, hl, hn]
        exact hf
      obtain ⟨v, hv, hwv⟩ := perform_of_filtered hq hf
      obtain ⟨x, hx, hux⟩ := perform_of_filtered hd hf'
      have hr := ih ((hwv.symm.trans h).trans hux) (hp v _ hv)
      have he : edited ((c, .alter d) :: es) = d :: edited es := rfl
      rw [he, List.map_cons, performAll, performAll, hv, hx]
      exact rel_map hr (fun p q hr => hr)

/-- A run from which idle calls are left out, or in which filtered ones are replaced by others, goes
the same way but for what is counted as filtered. -/
theorem idle_calls_leave_no_trace (h : Permits (before ++ after) w) :
    Corresponds before (w.performAll (before.map (·.1))) (w.performAll (edited before)) ∧
      (∀ cs, (w.withoutIdle cs).map (·.1) = cs ∧
        Corresponds (w.withoutIdle cs) (w.performAll cs)
          (w.performAll (edited (w.withoutIdle cs)))) ∧
      ∀ v c, v.idle c = true → ∃ u r, v.perform c = some (u, r) ∧ Alike v u ∧
        u.formatted = v.formatted := by
  refine ⟨corresponds_performAll (.refl w) (permits_append h), fun cs => ?_, fun v c hc => ?_⟩
  · have hr := corresponds_performAll (.refl w) (permits_withoutIdle cs w)
    rw [commands_withoutIdle] at hr
    exact ⟨commands_withoutIdle cs w, hr⟩
  · obtain ⟨u, r, hu, ha⟩ := perform_of_idle hc
    exact ⟨u, r, hu, ha, ha.formatted⟩

def mostlyIdle : List (Command × Edit) :=
  [(.debug 1 "fine", .drop), (.logRaw 1 (-1) false (.text "none"), .drop),
    (.debug 0 "finer", .alter (.log 0 .debug false (.text "other"))), (.info 1 "up", .keep)]

theorem mostlyIdle_leaves_one_line : ∃ u rs,
    relay.performAll [.log 0 .debug false (.text "other"), .info 1 "up"] = some (u, rs) ∧
      u.buffers.get 0 = Text.Utf8.ofString "01\t00\tINF up\n\n" ∧ u.formatted = 1 := by
  have hp : Permits (mostlyIdle ++ []) relay := by
    refine ⟨rfl, fun u r hu => ?_⟩
    cases hu
    refine ⟨rfl, fun u r hu => ?_⟩
    cases hu
    refine ⟨⟨_, _, rfl, rfl, rfl, rfl, rfl⟩, fun u r hu => ?_⟩
    exact ⟨trivial, fun _ _ _ => trivial⟩
  have h := (idle_calls_leave_no_trace hp).1
  have hx : ∃ v rs, relay.performAll (mostlyIdle.map (·.1)) = some (v, rs) ∧
      v.buffers.get 0 = Text.Utf8.ofString "01\t00\tINF up\n\n" ∧ v.formatted = 1 := by
    exact ⟨_, _, rfl, by cbv, by cbv⟩
  obtain ⟨v, rs, hv, hb, hf⟩ := hx
  have he : edited mostlyIdle = [.log 0 .debug false (.text "other"), .info 1 "up"] := rfl
  rw [hv, he] at h
  generalize relay.performAll [.log 0 .debug false (.text "other"), .info 1 "up"] = x at h ⊢
  cases h with
  | some h =>
    refine ⟨_, _, rfl, ?_, h.1.formatted.trans hf⟩
    exact (congrArg (fun d => d.buffers.get 0) h.1.outlets).trans hb

end State

end LineLogger
