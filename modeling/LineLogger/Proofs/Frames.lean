import LineLogger.Proofs.Calls

namespace LineLogger

/-- What has come out of the loggers of a program. -/
structure Outlets where
  buffers : Store Bytes
  devices : Store Device
  files : FileTree
  standardError : Bytes

namespace Time.Clock

def ticked (c : Clock) (n : Nat) : Clock := { c with taken := c.taken + n }

theorem ticked_zero (c : Clock) : c.ticked 0 = c := rfl

theorem ticked_one (c : Clock) : c.ticked 1 = c.tick := rfl

theorem ticked_ticked (c : Clock) (m n : Nat) : (c.ticked m).ticked n = c.ticked (m + n) := by
  simp [ticked, Nat.add_assoc]

end Time.Clock

def Message.content : Message → String
  | .text s => s
  | .formatted s => s

namespace State

variable (w : State) (l k : LoggerId) (e : Event) (c : Counter) (q : Call) (o : Outlet) (b : Bytes)

def outlets : Outlets := ⟨w.buffers, w.devices, w.files, w.standardError⟩

@[simp]
theorem logger_note : (w.note e).logger l = w.logger l := rfl

@[simp]
theorem hooks_note : (w.note e).hooks = w.hooks := rfl

@[simp]
theorem journal_note : (w.note e).journal = w.journal ++ [e] := rfl

theorem logger_count :
    (w.count l c).logger k = if k = l then (w.logger k).count c else w.logger k :=
  logger_modifyLogger w l k _

def tally : UInt64 := (w.logger l).metrics.count c

theorem tally_count (d : Counter) :
    (w.count l c).tally k d = w.tally k d + if k = l ∧ c = d then 1 else 0 := by
  rw [tally, logger_count]
  by_cases h : k = l
  · rw [if_pos h, Logger.count, Metrics.count_record]
    by_cases hd : c = d
    · rw [if_pos hd, if_pos ⟨h, hd⟩]
      rfl
    · rw [if_neg hd, if_neg (fun hc => hd hc.2), UInt64.add_zero]
      rfl
  · rw [if_neg h, if_neg (fun hc => h hc.1), UInt64.add_zero]
    rfl

theorem tally_set (s : Setting) (d : Counter) :
    (w.modifyLogger l (·.set s)).tally k d = w.tally k d := by
  rw [tally, logger_modifyLogger, tally]
  split
  · cases s <;> rfl
  · rfl

theorem tally_reset (d : Counter) :
    (w.modifyLogger l (fun g => { g with metrics := {} })).tally k d =
      if k = l then 0 else w.tally k d := by
  rw [tally, logger_modifyLogger, tally]
  split
  · exact Metrics.count_default d
  · rfl

def admits : Bool := (w.logger q.logger).admits q.level

theorem admits_iff : w.admits q = true ↔ q.level ≤ (w.logger q.logger).threshold := by
  rw [admits, Logger.admits, decide_eq_true_eq]

/-- The state in which a logger starts to deliver a line: the call is on record, its text is made
and the clock is read. -/
def opened : State := (((w.note (.reached q.logger)).textOf q.message).1.readClock q.logger).1

def lineOf : Bytes :=
  (w.logger q.logger).line (w.clocks.get (w.logger q.logger).clock).now
    (tag q.label q.message.content)

@[simp]
theorem loggers_opened : (w.opened q).loggers = w.loggers := by
  rw [opened]
  cases q.message <;> rfl

@[simp]
theorem logger_opened : (w.opened q).logger k = w.logger k :=
  congrArg (·.get k) (loggers_opened w q)

@[simp]
theorem outlets_opened : (w.opened q).outlets = w.outlets := by
  rw [opened]
  cases q.message <;> rfl

@[simp]
theorem buffers_opened : (w.opened q).buffers = w.buffers :=
  congrArg Outlets.buffers (outlets_opened w q)

@[simp]
theorem clocks_opened :
    (w.opened q).clocks = w.clocks.modify (w.logger q.logger).clock (·.tick) := by
  rw [opened]
  cases q.message <;> rfl

@[simp]
theorem hooks_opened : (w.opened q).hooks = w.hooks := by
  rw [opened]
  cases q.message <;> rfl

@[simp]
theorem inHook_opened : (w.opened q).inHook = w.inHook := by
  rw [opened]
  cases q.message <;> rfl

@[simp]
theorem journal_opened : (w.opened q).journal = w.journal ++ [.reached q.logger] := by
  rw [opened]
  cases q.message <;> rfl

@[simp]
theorem loggers_deliver : (w.deliver o b).1.loggers = w.loggers := by cases o <;> rfl

@[simp]
theorem logger_deliver : (w.deliver o b).1.logger l = w.logger l := by cases o <;> rfl

@[simp]
theorem clocks_deliver : (w.deliver o b).1.clocks = w.clocks := by cases o <;> rfl

@[simp]
theorem hooks_deliver : (w.deliver o b).1.hooks = w.hooks := by cases o <;> rfl

@[simp]
theorem inHook_deliver : (w.deliver o b).1.inHook = w.inHook := by cases o <;> rfl

@[simp]
theorem journal_deliver : (w.deliver o b).1.journal = w.journal := by cases o <;> rfl

variable {w}

theorem deliver_congr {u : State} (h : w.outlets = u.outlets) :
    (w.deliver o b).2 = (u.deliver o b).2 ∧
      (w.deliver o b).1.outlets = (u.deliver o b).1.outlets := by
  obtain ⟨hb, hd, hf, hs⟩ := Outlets.mk.inj h
  cases o <;> simp [deliver, outlets, hb, hd, hf, hs]

def withOutlets (w : State) (o : Outlets) : State :=
  { w with
    buffers := o.buffers
    devices := o.devices
    files := o.files
    standardError := o.standardError }

/-- An action that sees and changes nothing but the outlets. -/
def OnOutlets {α : Type} (p : State → State × α) : Prop :=
  ∃ g : Outlets → Outlets × α, ∀ w, p w = (w.withOutlets (g w.outlets).1, (g w.outlets).2)

theorem OnOutlets.map {α β : Type} {p : State → State × α} (h : OnOutlets p) (k : α → β) :
    OnOutlets (fun w => ((p w).1, k (p w).2)) := by
  obtain ⟨g, hg⟩ := h
  refine ⟨fun d => ((g d).1, k (g d).2), fun w => ?_⟩
  dsimp only
  rw [hg]

theorem onOutlets_deliver (o : Outlet) (b : Bytes) : OnOutlets (·.deliver o b) := by
  cases o with
  | standardError =>
    exact ⟨fun d => ({ d with standardError := d.standardError ++ b }, none), fun _ => rfl⟩
  | buffer i =>
    exact ⟨fun d => ({ d with buffers := d.buffers.modify i (· ++ b) }, none), fun _ => rfl⟩
  | device i =>
    exact ⟨fun d => let a := (d.devices.get i).writeAll b
      ({ d with devices := d.devices.put i a.1 }, a.2), fun _ => rfl⟩
  | file l => exact ⟨fun d => ({ d with files := d.files.append l b }, none), fun _ => rfl⟩

theorem onOutlets_offer (o : Outlet) (b : Bytes) : OnOutlets (·.offer o b) := by
  have h := (onOutlets_deliver o b).map (fun _ => (.ok b.length : Except IoError Nat))
  cases o with
  | device i =>
    exact ⟨fun d => ({ d with devices := d.devices.modify i (·.afterWrite b) },
      (d.devices.get i).answerTo b), fun _ => rfl⟩
  | _ => exact h

theorem onOutlets_flushOutlet (o : Outlet) : OnOutlets (·.flushOutlet o) := by
  cases o with
  | device i =>
    exact ⟨fun d => ({ d with devices := d.devices.modify i (·.afterFlush) },
      (d.devices.get i).flushFailure), fun _ => rfl⟩
  | _ => exact ⟨fun d => (d, none), fun _ => rfl⟩

def replyOf (e : Option IoError) : Reply :=
  match e with
  | none => .done
  | some e => .ioFailed e

def countOf (n : Except IoError Nat) : Reply :=
  match n with
  | .ok n => .count n
  | .error e => .ioFailed e

def flushReplyOf (e : Option IoError) : Reply :=
  match e with
  | none => .done
  | some e => .failed (.io e)

/-- The ways of a command that makes no call: there is nothing to do, it flushes a logger, changes
one, or acts on the outlets alone. -/
inductive Plain (c : Command) : Prop
  | idle (hn : c.flushed? = none) (r : Reply) (h : ∀ f held w, exec f held c w = some (w, r))
  | flush (l : LoggerId) (hl : c.flushed? = some l) (k : Option IoError → Reply)
      (h : ∀ f held w, exec f held c w =
        (w.flush w.loggers.size held l).map (fun p => (p.1, k p.2)))
  | set (l : LoggerId) (s : Setting) (h : c = .set l s)
  | reset (l : LoggerId) (h : c = .resetMetrics l)
  | outlets (hn : c.flushed? = none) (p : State → State × Reply) (hp : OnOutlets p)
      (h : ∀ f held w, exec f held c w = some (p w))

theorem plain_of_no_call {c : Command} (hc : c.call? = none) : Plain c := by
  cases c with
  | log l v tagged m => cases hc
  | logRaw l n tagged m =>
    obtain ⟨e, he⟩ := resolve_of_raw?_none hc
    exact .idle rfl (.failed e) (fun f held w => by simp only [exec, he])
  | flush l => exact .flush l rfl flushReplyOf (fun _ _ _ => rfl)
  | set l s => exact .set l s rfl
  | resetMetrics l => exact .reset l rfl
  | writeOnce s b =>
    cases s with
    | writer v => cases hc
    | outlet o =>
      exact .outlets rfl _ ((onOutlets_offer o b).map countOf)
        (fun f held w => writeOnce_outlet f held o b w)
  | write s b =>
    cases s with
    | writer v =>
      by_cases hb : b = []
      · subst hb
        exact .idle rfl .done (fun _ _ _ => rfl)
      · simp [Command.call?, hb] at hc
    | outlet o =>
      exact .outlets rfl _ ((onOutlets_deliver o b).map replyOf)
        (fun f held w => write_outlet f held o b w)
  | flushSink s =>
    cases s with
    | writer v => exact .flush v.logger rfl (fun _ => .done) (fun _ _ _ => rfl)
    | outlet o =>
      exact .outlets rfl _ ((onOutlets_flushOutlet o).map replyOf)
        (fun _ held w => flushSink_outlet held o w)
  | clear i =>
    exact .outlets rfl (fun w => ({ w with buffers := w.buffers.put i [] }, .done))
      ⟨fun d => ({ d with buffers := d.buffers.put i [] }, .done), fun _ => rfl⟩ (fun _ _ _ => rfl)

/-- What relates the ends of each step of a flush does so for the flush, if it can be chained. -/
theorem flush_rel {P : State → State → Prop} (ht : ∀ {w u v}, P w u → P u v → P w v)
    (hn : ∀ w l x, P w (w.note (.flushed l x))) (hc : ∀ w l, P w (w.count l .flushFailure))
    (ho : ∀ w o, P w (w.flushOutlet o).1) {free : Nat} {held : List LoggerId} {l : LoggerId}
    {w u : State} {x : Option IoError} (h : w.flush free held l = some (u, x)) : P w u := by
  fun_induction flush free held l w generalizing u x with
  | case1 => cases h
  | case2 => cases h
  | case3 => cases h
  | case4 held l hl free v hs y e hy ih =>
    cases h
    exact ht (ih hy) (hn y l _)
  | case5 held l hl free o hs y hy =>
    cases h
    have hf := ho w o
    rw [hy] at hf
    exact ht hf (hn y l _)
  | case6 held l hl free o hs y e hy =>
    cases h
    have hf := ho w o
    rw [hy] at hf
    exact ht (ht hf (hn y l _)) (hc _ l)

/-- What is not concerned with the record, with failed flushes or with outlets is left as it is by a
flush. -/
theorem flush_frame {α : Type} {f : State → α} (hn : ∀ w e, f (w.note e) = f w)
    (hc : ∀ w l, f (w.count l .flushFailure) = f w) (ho : ∀ w o, f (w.flushOutlet o).1 = f w)
    {free : Nat} {held : List LoggerId} {l : LoggerId} {w u : State} {x : Option IoError}
    (h : w.flush free held l = some (u, x)) : f u = f w :=
  flush_rel (P := fun w u => f u = f w) (fun h h' => h'.trans h) (fun w _ _ => hn w _) hc ho h

theorem change_cases {held : List LoggerId} {l : LoggerId} {s : Setting} {w u : State} {r : Reply}
    (h : w.change held l s = some (u, r)) : u = w.modifyLogger l (·.set s) ∧ r = .done := by
  rw [change.eq_def] at h
  split at h
  · split at h
    · cases h
    · cases h
      exact ⟨rfl, rfl⟩
  · cases h
    exact ⟨rfl, rfl⟩

/-- What bears a change of a logger, an action on the outlets and the record of a flush bears every
command that makes no call. -/
theorem rel_of_no_call {P : State → State → Prop} (hr : ∀ w, P w w)
    (ht : ∀ {w u v}, P w u → P u v → P w v) (hn : ∀ w l x, P w (w.note (.flushed l x)))
    (hm : ∀ w l g, P w (w.modifyLogger l g)) (ho : ∀ w d, P w (w.withOutlets d)) {c : Command}
    {f : OnFailure} {held : List LoggerId} {w u : State} {r : Reply} (hc : c.call? = none)
    (h : w.exec f held c = some (u, r)) : P w u := by
  have outlets {α : Type} {p : State → State × α} (hp : OnOutlets p) (w : State) :
      P w (p w).1 := by
    obtain ⟨g, hg⟩ := hp
    rw [hg]
    exact ho w _
  cases plain_of_no_call hc with
  | idle _ r' hs =>
    cases (hs f held w).symm.trans h
    exact hr w
  | flush l _ k hs =>
    rw [hs] at h
    obtain ⟨⟨x, e⟩, hx, he⟩ := Option.map_eq_some_iff.mp h
    cases he
    exact flush_rel (P := P) ht hn (fun w l => hm w l _)
      (fun w o => outlets (onOutlets_flushOutlet o) w) hx
  | set l s hs =>
    subst hs
    obtain ⟨rfl, -⟩ := change_cases h
    exact hm w l _
  | reset l hs =>
    subst hs
    cases h
    exact hm w l _
  | outlets _ p hp hs =>
    have hu : p w = (u, r) := Option.some.inj ((hs f held w).symm.trans h)
    have hp := outlets hp w
    rw [hu] at hp
    exact hp

end State

end LineLogger
