import LineLogger.Proofs.Hooks
import Mathlib

namespace LineLogger

/-- The logger that a command logs through or flushes. -/
def Command.subject? : Command → Option LoggerId
  | .log l _ _ _ => some l
  | .logRaw l _ _ _ => some l
  | .flush l => some l
  | .writeOnce (.writer v) _ => some v.logger
  | .write (.writer v) _ => some v.logger
  | .flushSink (.writer v) => some v.logger
  | _ => none

def Logger.bare (g : Logger) : Logger := { g with metrics := {} }

inductive Holding
  | bytes (b : Bytes)
  | device (d : Device)
  | file (content : Option Bytes)

namespace FileTree

theorem content?_replace (t : FileTree) (l m : Location) (b : Bytes) :
    (t.replace l b).content? m = if m = l then some b else t.content? m := by
  by_cases h : m = l
  · simp [replace, content?, h]
  · have hl : (m == l) = false := by simpa using h
    simp [replace, content?, List.lookup_cons, hl, h, Store.lookup_filter_ne h]

theorem content?_append (t : FileTree) {l m : Location} (h : m ≠ l) (b : Bytes) :
    (t.append l b).content? m = t.content? m := by
  rw [append, content?_replace, if_neg h]

end FileTree

namespace State

def holding (w : State) : Outlet → Holding
  | .standardError => .bytes w.standardError
  | .buffer i => .bytes (w.buffers.get i)
  | .device i => .device (w.devices.get i)
  | .file l => .file (w.files.content? l)

variable {w u v : State} {R : Set LoggerId} {c : Command} {q : Call} {a : Landing} {r : Reply}
  {f : OnFailure} {free depth : Nat} {held : List LoggerId} {l k : LoggerId} {o p : Outlet}
  {cs : List Command}

theorem holding_congr (h : u.outlets = w.outlets) (o : Outlet) : u.holding o = w.holding o := by
  obtain ⟨hb, hd, hf, hs⟩ := Outlets.mk.inj h
  cases o <;> simp [holding, hb, hd, hf, hs]

theorem holding_deliver (h : p ≠ o) (b : Bytes) : (w.deliver o b).1.holding p = w.holding p := by
  cases o with
  | standardError =>
    cases p with
    | standardError => exact absurd rfl h
    | _ => rfl
  | buffer i =>
    cases p with
    | buffer j =>
      have hj : j ≠ i := fun e => h (congrArg Outlet.buffer e)
      simp [deliver, holding, Store.get_modify, hj]
    | _ => rfl
  | device i =>
    cases p with
    | device j =>
      have hj : j ≠ i := fun e => h (congrArg Outlet.device e)
      simp [deliver, holding, Store.get_put_of_ne _ _ hj]
    | _ => rfl
  | file m =>
    cases p with
    | file n =>
      have hn : n ≠ m := fun e => h (congrArg Outlet.file e)
      simp [deliver, holding, FileTree.content?_append _ hn]
    | _ => rfl

theorem holding_flushOutlet (h : p ≠ o) : (w.flushOutlet o).1.holding p = w.holding p := by
  cases o with
  | device i =>
    cases p with
    | device j =>
      have hj : j ≠ i := fun e => h (congrArg Outlet.device e)
      simp [flushOutlet, holding, Store.get_modify, hj]
    | _ => rfl
  | _ => rfl

/-- What lies between two states is the work of some loggers: they may have counted, their clocks
may have gone on, and their outlets may hold something else. All else is the same. -/
structure Confined (R : Set LoggerId) (w u : State) : Prop where
  bare : ∀ k, (u.logger k).bare = (w.logger k).bare
  loggers : ∀ k, k ∉ R → u.logger k = w.logger k
  ticks : ∀ c, ∃ n, u.clocks.get c = (w.clocks.get c).ticked n
  clocks : ∀ c, (∀ k ∈ R, (w.logger k).clock ≠ c) → u.clocks.get c = w.clocks.get c
  holding : ∀ o, (∀ k ∈ R, (w.logger k).sink ≠ .outlet o) → u.holding o = w.holding o
  directories : u.files.directories = w.files.directories
  hooks : u.hooks = w.hooks
  size : u.loggers.size = w.loggers.size

namespace Confined

theorem sink (h : Confined R w u) (k : LoggerId) : (u.logger k).sink = (w.logger k).sink := by
  have hb := congrArg Logger.sink (h.bare k)
  exact hb

theorem clock (h : Confined R w u) (k : LoggerId) : (u.logger k).clock = (w.logger k).clock := by
  have hb := congrArg Logger.clock (h.bare k)
  exact hb

theorem hook (h : Confined R w u) (k : LoggerId) : (u.logger k).hook = (w.logger k).hook := by
  have hb := congrArg Logger.hook (h.bare k)
  exact hb

theorem threshold (h : Confined R w u) (k : LoggerId) :
    (u.logger k).threshold = (w.logger k).threshold := by
  have hb := congrArg Logger.threshold (h.bare k)
  exact hb

theorem timeFormat (h : Confined R w u) (k : LoggerId) :
    (u.logger k).timeFormat = (w.logger k).timeFormat := by
  have hb := congrArg Logger.timeFormat (h.bare k)
  exact hb

theorem refl (R : Set LoggerId) (w : State) : Confined R w w :=
  ⟨fun _ => rfl, fun _ _ => rfl, fun _ => ⟨0, rfl⟩, fun _ _ => rfl, fun _ _ => rfl, rfl, rfl, rfl⟩

theorem trans (h : Confined R w u) (h' : Confined R u v) : Confined R w v where
  bare k := (h'.bare k).trans (h.bare k)
  loggers k hk := (h'.loggers k hk).trans (h.loggers k hk)
  ticks c := by
    obtain ⟨m, hm⟩ := h.ticks c
    obtain ⟨n, hn⟩ := h'.ticks c
    exact ⟨m + n, by rw [hn, hm, Time.Clock.ticked_ticked]⟩
  clocks c hc := (h'.clocks c fun k hk => h.clock k ▸ hc k hk).trans (h.clocks c hc)
  holding o ho := (h'.holding o fun k hk => h.sink k ▸ ho k hk).trans (h.holding o ho)
  directories := h'.directories.trans h.directories
  hooks := h'.hooks.trans h.hooks
  size := h'.size.trans h.size

theorem of_eq (hl : u.loggers = w.loggers) (hc : u.clocks = w.clocks) (ho : u.outlets = w.outlets)
    (hh : u.hooks = w.hooks) : Confined R w u where
  bare k := congrArg (fun s => (s.get k).bare) hl
  loggers k _ := congrArg (·.get k) hl
  ticks c := ⟨0, congrArg (·.get c) hc⟩
  clocks c _ := congrArg (·.get c) hc
  holding o _ := holding_congr ho o
  directories := congrArg (·.files.directories) ho
  hooks := hh
  size := congrArg Store.size hl

theorem note (R : Set LoggerId) (w : State) (e : Event) : Confined R w (w.note e) :=
  of_eq rfl rfl rfl rfl

theorem count (hl : l ∈ R) (w : State) (d : Counter) : Confined R w (w.count l d) where
  bare k := by
    rw [logger_count]
    split <;> rfl
  loggers k hk := by
    have hn : k ≠ l := fun e => hk (e ▸ hl)
    rw [logger_count, if_neg hn]
  ticks c := ⟨0, rfl⟩
  clocks c _ := rfl
  holding o _ := rfl
  directories := rfl
  hooks := rfl
  size := rfl

theorem countAll {ls : List LoggerId} (hl : ∀ l ∈ ls, l ∈ R) (w : State) (d : Counter) :
    Confined R w (w.countAll ls d) := by
  induction ls generalizing w with
  | nil => exact refl R w
  | cons l ls ih =>
    obtain ⟨h, hs⟩ := List.forall_mem_cons.mp hl
    exact (count h w d).trans (ih hs (w.count l d))

theorem opened (hq : q.logger ∈ R) (w : State) : Confined R w (w.opened q) where
  bare k := by rw [logger_opened]
  loggers k _ := logger_opened w k q
  ticks c := ⟨_, get_clocks_opened w q c⟩
  clocks c hc := by
    rw [clocks_opened, Store.get_modify, if_neg (Ne.symm (hc _ hq))]
  holding o _ := holding_congr (outlets_opened w q) o
  directories := congrArg (·.files.directories) (outlets_opened w q)
  hooks := hooks_opened w q
  size := congrArg Store.size (loggers_opened w q)

theorem deliver (hl : l ∈ R) (hs : (w.logger l).sink = .outlet o) (b : Bytes) :
    Confined R w (w.deliver o b).1 where
  bare k := by rw [logger_deliver]
  loggers k _ := logger_deliver w k o b
  ticks c := ⟨0, congrArg (·.get c) (clocks_deliver w o b)⟩
  clocks c _ := congrArg (·.get c) (clocks_deliver w o b)
  holding p hp := holding_deliver (fun e => hp l hl (hs.trans (congrArg Sink.outlet e.symm))) b
  directories := by cases o <;> rfl
  hooks := hooks_deliver w o b
  size := congrArg Store.size (loggers_deliver w o b)

theorem flushOutlet (hl : l ∈ R) (hs : (w.logger l).sink = .outlet o) :
    Confined R w (w.flushOutlet o).1 where
  bare k := by cases o <;> rfl
  loggers k _ := by cases o <;> rfl
  ticks c := ⟨0, by cases o <;> rfl⟩
  clocks c _ := by cases o <;> rfl
  holding p hp := holding_flushOutlet (fun e => hp l hl (hs.trans (congrArg Sink.outlet e.symm)))
  directories := by cases o <;> rfl
  hooks := by cases o <;> rfl
  size := by cases o <;> rfl

end Confined

/-- No way leads out of a set of loggers: their writers write to loggers of the set, and their hooks
log through such loggers or flush them, and do nothing else. -/
structure Closed (w : State) (R : Set LoggerId) : Prop where
  sink : ∀ k ∈ R, ∀ v, (w.logger k).sink = .writer v → v.logger ∈ R
  hook : ∀ k ∈ R, ∀ h, (w.logger k).hook = some h → ∀ e, ∀ c ∈ (w.hooks.get h).body e,
    ∃ l ∈ R, c.subject? = some l

theorem Closed.of_confined {S : Set LoggerId} (hR : w.Closed R) (h : Confined S w u) :
    u.Closed R where
  sink k hk v hv := hR.sink k hk v ((h.sink k).symm.trans hv)
  hook k hk i hi e c hc := hR.hook k hk i ((h.hook k).symm.trans hi) e c (h.hooks ▸ hc)

theorem confined_descend (hR : w.Closed R) (hq : q.logger ∈ R)
    (h : w.descend free held q = some a) :
    Confined R w a.state ∧ a.logger ∈ R ∧ ∀ l ∈ a.passed, l ∈ R := by
  fun_induction descend free held q w generalizing a with
  | case1 => cases h
  | case2 => cases h
  | case3 held q w ha hl free v hs ih =>
    obtain ⟨b, hb, rfl⟩ := Option.map_eq_some_iff.mp h
    have ho := Confined.opened hq w
    obtain ⟨hc, hm, hp⟩ := ih (hR.of_confined ho) (hR.sink _ hq v hs) hb
    refine ⟨ho.trans hc, hm, fun l hl => ?_⟩
    obtain hl | hl := List.mem_append.mp hl
    · exact hp l hl
    · exact List.mem_singleton.mp hl ▸ hq
  | case4 held q w ha hl free o hs =>
    cases h
    have hs' : ((w.opened q).logger q.logger).sink = .outlet o := by rwa [logger_opened]
    exact ⟨(Confined.opened hq w).trans (.deliver hq hs' _), hq, by simp [Landing.ofDelivery]⟩
  | case5 =>
    cases h
    exact ⟨.note R _ _, hq, by simp⟩

theorem confined_ended (ha : a.logger ∈ R) : Confined R a.state a.ended := by
  rw [Landing.ended]
  cases a.fate with
  | filtered => exact .count ha _ _
  | written => exact .count ha _ _
  | lost e => exact (Confined.note R _ _).trans (.count ha _ _)

theorem confined_flush {x : Option IoError} (hR : w.Closed R) (hl : l ∈ R)
    (h : w.flush free held l = some (u, x)) : Confined R w u := by
  fun_induction flush free held l w generalizing u x with
  | case1 => cases h
  | case2 => cases h
  | case3 => cases h
  | case4 held l hh free v hs y e hy ih =>
    cases h
    exact (ih (hR.sink l hl v hs) hy).trans (.note R _ _)
  | case5 held l hh free o hs y hy =>
    cases h
    have hf := Confined.flushOutlet hl hs
    rw [hy] at hf
    exact hf.trans (.note R _ _)
  | case6 held l hh free o hs y e hy =>
    cases h
    have hf := Confined.flushOutlet hl hs
    rw [hy] at hf
    exact hf.trans ((Confined.note R _ _).trans (.count hl _ _))

/-- What is done about a lost line stays within the set. -/
def Keeps (R : Set LoggerId) (f : OnFailure) : Prop :=
  ∀ held l e w u, w.Closed R → l ∈ R → f held l e w = some u → Confined R w u

theorem confined_settle (hf : Keeps R f) (hR : a.ended.Closed R) (ha : a.logger ∈ R)
    (hp : ∀ l ∈ a.passed, l ∈ R) (h : a.settle f held = some u) : Confined R a.ended u := by
  rw [Landing.settle] at h
  split at h
  · obtain ⟨x, hx, rfl⟩ := Option.map_eq_some_iff.mp h
    exact (hf _ _ _ _ x hR ha hx).trans (.countAll hp _ _)
  · cases h
    exact .countAll hp _ _
  · cases h
    exact .countAll hp _ _

theorem subject?_of_call (h : c.call? = some q) : c.subject? = some q.logger := by
  cases c with
  | logRaw l n tagged m => exact congrArg some (resolve_of_raw? h).2.1.symm
  | writeOnce s b =>
    cases s with
    | outlet o => cases h
    | writer v =>
      cases h
      rfl
  | write s b =>
    cases s with
    | outlet o => cases h
    | writer v =>
      simp only [Command.call?, Option.ite_none_left_eq_some, Option.some.injEq] at h
      rw [← h.2]
      rfl
  | log k v tagged m =>
    cases h
    rfl
  | _ => cases h

theorem plain_of_subject (hs : c.subject? = some l) (hc : c.call? = none) :
    (∃ r, ∀ f held w, exec f held c w = some (w, r)) ∨ c.flushed? = some l := by
  cases c with
  | logRaw k n tagged m =>
    obtain ⟨e, he⟩ := resolve_of_raw?_none hc
    exact .inl ⟨.failed e, fun f held w => by simp only [exec, he]⟩
  | flush k => exact .inr hs
  | write s b =>
    cases s with
    | outlet o => cases hs
    | writer v =>
      by_cases hb : b = []
      · subst hb
        exact .inl ⟨.done, fun _ _ _ => rfl⟩
      · simp [Command.call?, hb] at hc
  | flushSink s =>
    cases s with
    | outlet o => cases hs
    | writer v => exact .inr hs
  | writeOnce s b =>
    cases s with
    | outlet o => cases hs
    | writer v => cases hc
  | log k v tagged m => cases hc
  | set k x => cases hs
  | resetMetrics k => cases hs
  | clear i => cases hs

theorem exec_of_flush (hc : c.flushed? = some l) : ∃ k : Option IoError → Reply,
    ∀ f held w, exec f held c w =
      (w.flush w.loggers.size held l).map (fun p => (p.1, k p.2)) := by
  cases c with
  | flush m =>
    cases hc
    exact ⟨flushReplyOf, fun _ _ _ => rfl⟩
  | flushSink s =>
    cases s with
    | outlet o => cases hc
    | writer v =>
      cases hc
      exact ⟨fun _ => .done, fun _ _ _ => rfl⟩
  | _ => cases hc

theorem flush_of_exec (hc : c.flushed? = some l) (h : w.exec f held c = some (u, r)) :
    ∃ x, w.flush w.loggers.size held l = some (u, x) := by
  obtain ⟨k, hk⟩ := exec_of_flush hc
  obtain ⟨⟨y, x⟩, hy, he⟩ := Option.map_eq_some_iff.mp ((hk f held w).symm.trans h)
  cases he
  exact ⟨x, hy⟩

theorem confined_submitCall (hf : Keeps R f) (hR : w.Closed R) (hq : q.logger ∈ R)
    (h : w.submitCall f free held q = some u) : Confined R w u := by
  rw [submitCall_eq_descend] at h
  obtain ⟨a, ha, hs⟩ := Option.bind_eq_some_iff.mp h
  obtain ⟨hd, hm, hp⟩ := confined_descend hR hq ha
  have he := hd.trans (confined_ended hm)
  exact he.trans (confined_settle hf (hR.of_confined he) hm hp hs)

theorem confined_exec (hf : Keeps R f) (hR : w.Closed R) (hc : c.subject? = some l) (hl : l ∈ R)
    (h : w.exec f held c = some (u, r)) : Confined R w u := by
  cases hq : c.call? with
  | some q =>
    cases (subject?_of_call hq).symm.trans hc
    rw [exec_of_call hq] at h
    obtain ⟨x, hx, he⟩ := Option.map_eq_some_iff.mp h
    cases he
    exact confined_submitCall hf hR hl hx
  | none =>
    rcases plain_of_subject hc hq with ⟨x, hx⟩ | hk
    · cases (hx f held w).symm.trans h
      exact .refl R w
    · obtain ⟨x, hx⟩ := flush_of_exec hk h
      exact confined_flush hR hl hx

theorem confined_execAll (hf : Keeps R f) (hR : w.Closed R)
    (hc : ∀ c ∈ cs, ∃ l ∈ R, c.subject? = some l) (h : w.execAll f held cs = some u) :
    Confined R w u := by
  induction cs generalizing w with
  | nil =>
    cases h
    exact .refl R u
  | cons c cs ih =>
    obtain ⟨⟨l, hl, hs⟩, hcs⟩ := List.forall_mem_cons.mp hc
    rw [execAll] at h
    split at h
    · cases h
    · next v r hv =>
      have hx := confined_exec hf hR hs hl hv
      exact hx.trans (ih (hR.of_confined hx) hcs h)

theorem Confined.enterHook (R : Set LoggerId) (w : State) (l : LoggerId) (h : HookId)
    (e : IoError) : Confined R w (w.enterHook l h e) := of_eq rfl rfl rfl rfl

theorem Confined.leaveHook (R : Set LoggerId) (w : State) (l : LoggerId) :
    Confined R w (w.leaveHook l) := of_eq rfl rfl rfl rfl

theorem onFailure_cases {e : IoError} (h : onFailure depth held l e w = some u) :
    u = w ∨ ∃ n i x, depth = n + 1 ∧ (w.logger l).hook = some i ∧
      execAll (onFailure n) held ((w.hooks.get i).body e) (w.enterHook l i e) = some x ∧
        u = x.leaveHook l := by
  cases hw : w.inHook with
  | true =>
    rw [onFailure_of_inHook hw] at h
    exact .inl (Option.some.inj h).symm
  | false =>
    cases hh : (w.logger l).hook with
    | none =>
      rw [onFailure_of_no_hook hh] at h
      exact .inl (Option.some.inj h).symm
    | some i =>
      cases depth with
      | zero => simp [onFailure, hw, hh] at h
      | succ n =>
        rw [onFailure_of_hook hw hh] at h
        obtain ⟨x, hx, rfl⟩ := Option.map_eq_some_iff.mp h
        exact .inr ⟨n, i, x, rfl, rfl, hx, rfl⟩

theorem keeps_onFailure (R : Set LoggerId) (depth : Nat) : Keeps R (onFailure depth) := by
  induction depth with
  | zero =>
    intro held l e w u hR hl h
    obtain rfl | ⟨n, -, -, hn, -⟩ := onFailure_cases h
    · exact .refl R u
    · cases hn
  | succ depth ih =>
    intro held l e w u hR hl h
    obtain rfl | ⟨n, i, x, hn, hi, hx, rfl⟩ := onFailure_cases h
    · exact .refl R u
    · cases hn
      have he := Confined.enterHook R w l i e
      have hb := confined_execAll ih (hR.of_confined he) (hR.hook l hl i hi e) hx
      exact he.trans (hb.trans (.leaveHook R x l))

end State

end LineLogger
