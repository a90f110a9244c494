import LineLogger.Proofs.Hooks
import LineLogger.Proofs.Redirection
import Mathlib.Data.List.Basic

namespace LineLogger

namespace State

/-- Two states that differ at most in the names of their loggers, in their outlets, in what is
counted and in what is on record. -/
structure Transported (f : LoggerId → LoggerId) (p : Outlet → Outlet) (w u : State) : Prop where
  size : u.loggers.size = w.loggers.size
  loggers : ∀ l, ∃ m, u.logger (f l) = { ((w.logger l).rename f).redirect p with metrics := m }
  clocks : u.clocks = w.clocks
  hooks : ∀ h, u.hooks.get h = ((w.hooks.get h).rename f).redirect p
  inHook : u.inHook = w.inHook
  carries : ∀ h e, ∀ c ∈ (w.hooks.get h).body e, c.Carries p

/-- A relation of such states, kept by every change that a command is made of. What an outlet
answers, the outlet in its place answers too. -/
structure Transport (f : LoggerId → LoggerId) (p : Outlet → Outlet) (R : State → State → Prop) :
    Prop where
  injective : Function.Injective f
  transported : ∀ {w u}, R w u → Transported f p w u
  note : ∀ {w u} (e), R w u → R (w.note e) (u.note (e.rename f))
  count : ∀ {w u} (l c), R w u → R (w.count l c) (u.count (f l) c)
  format : ∀ {w u}, R w u →
    R { w with formatted := w.formatted + 1 } { u with formatted := u.formatted + 1 }
  set : ∀ {w u} (l s), R w u →
    R (w.modifyLogger l (·.set s)) (u.modifyLogger (f l) (·.set ((s.rename f).redirect p)))
  reset : ∀ {w u} (l), R w u →
    R (w.modifyLogger l (fun g => { g with metrics := {} }))
      (u.modifyLogger (f l) (fun g => { g with metrics := {} }))
  clocks : ∀ {w u} (c), R w u → R { w with clocks := c } { u with clocks := c }
  inHook : ∀ {w u} (b), R w u → R { w with inHook := b } { u with inHook := b }
  deliver : ∀ {w u} (o b), R w u → R (w.deliver o b).1 (u.deliver (p o) b).1 ∧
    (w.deliver o b).2 = (u.deliver (p o) b).2
  offer : ∀ {w u} (o b), R w u → R (w.offer o b).1 (u.offer (p o) b).1 ∧
    (w.offer o b).2 = (u.offer (p o) b).2
  flushOutlet : ∀ {w u} (o), R w u → R (w.flushOutlet o).1 (u.flushOutlet (p o)).1 ∧
    (w.flushOutlet o).2 = (u.flushOutlet (p o)).2
  clear : ∀ {w u} (i), p (.buffer i) = .buffer i → R w u →
    R { w with buffers := w.buffers.put i [] } { u with buffers := u.buffers.put i [] }

/-- The same comes of both, and the states afterwards are related. -/
abbrev Agree {α : Type} (R : State → State → Prop) :
    Option (State × α) → Option (State × α) → Prop :=
  Option.Rel (fun p q => R p.1 q.1 ∧ p.2 = q.2)

theorem rel_map {α β γ δ : Type} {r : α → β → Prop} {s : γ → δ → Prop} {x : Option α}
    {y : Option β} {f : α → γ} {g : β → δ} (h : Option.Rel r x y)
    (hfg : ∀ a b, r a b → s (f a) (g b)) : Option.Rel s (x.map f) (y.map g) := by
  cases h with
  | some h => exact .some (hfg _ _ h)
  | none => exact .none

theorem agree_of_answers {α β : Type} {R : State → State → Prop} {x y : State × α} {r : α → β}
    {a b : Option (State × β)} (h : R x.1 y.1 ∧ x.2 = y.2) (ha : a = some (x.1, r x.2))
    (hb : b = some (y.1, r y.2)) : Agree R a b := by
  rw [ha, hb]
  exact .some ⟨h.1, congrArg r h.2⟩

namespace Transport

variable {f : LoggerId → LoggerId} {p : Outlet → Outlet} {R : State → State → Prop} {w u : State}
  {q : Call} {g k : OnFailure} {free : Nat} {held : List LoggerId} {l : LoggerId}

theorem settings (hR : Transport f p R) (h : R w u) (l : LoggerId) :
    (u.logger (f l)).threshold = (w.logger l).threshold ∧
      (u.logger (f l)).timeFormat = (w.logger l).timeFormat ∧
      (u.logger (f l)).clock = (w.logger l).clock ∧
      (u.logger (f l)).sink = ((w.logger l).sink.rename f).redirect p ∧
      (u.logger (f l)).hook = (w.logger l).hook := by
  obtain ⟨m, hm⟩ := (hR.transported h).loggers l
  rw [hm]
  exact ⟨rfl, rfl, rfl, rfl, rfl⟩

theorem sink (hR : Transport f p R) (h : R w u) (l : LoggerId) :
    (u.logger (f l)).sink = ((w.logger l).sink.rename f).redirect p := (hR.settings h l).2.2.2.1

theorem hook (hR : Transport f p R) (h : R w u) (l : LoggerId) :
    (u.logger (f l)).hook = (w.logger l).hook := (hR.settings h l).2.2.2.2

theorem mem_held (hR : Transport f p R) : f l ∈ held.map f ↔ l ∈ held :=
  List.mem_map_of_injective hR.injective

theorem admits (hR : Transport f p R) (h : R w u) (q : Call) :
    u.admits (q.rename f) = w.admits q :=
  congrArg (fun t => decide (q.level ≤ t)) (hR.settings h q.logger).1

theorem lineOf (hR : Transport f p R) (h : R w u) (q : Call) :
    u.lineOf (q.rename f) = w.lineOf q := by
  obtain ⟨-, ht, hc, -, -⟩ := hR.settings h q.logger
  rw [Call.rename, State.lineOf, State.lineOf, Logger.line, ht, hc, (hR.transported h).clocks]
  rfl

theorem handedOn (hR : Transport f p R) (h : R w u) (q : Call) (v : Writer) :
    u.handedOn (q.rename f) (v.rename f) = (w.handedOn q v).rename f :=
  congrArg (Call.written (v.rename f)) (hR.lineOf h q)

theorem opened (hR : Transport f p R) (h : R w u) (q : Call) :
    R (w.opened q) (u.opened (q.rename f)) := by
  have hn := hR.note (.reached q.logger) h
  have ht : R ((w.note (.reached q.logger)).textOf q.message).1
      ((u.note (.reached (f q.logger))).textOf q.message).1 := by
    cases q.message with
    | text s => exact hn
    | formatted s => exact hR.format hn
  obtain ⟨-, -, hc, -, -⟩ := hR.settings ht q.logger
  rw [State.opened, State.opened, Call.rename, readClock, readClock, hc, (hR.transported ht).clocks]
  exact hR.clocks _ ht

def Handles (f : LoggerId → LoggerId) (R : State → State → Prop) (g k : OnFailure) : Prop :=
  ∀ held l e w u, R w u → Option.Rel R (g held l e w) (k (held.map f) (f l) e u)

theorem submitCall_of_not_admits (hR : Transport f p R) (h : R w u) (ha : w.admits q = false) :
    Option.Rel R (w.submitCall g free held q)
      (u.submitCall k free (held.map f) (q.rename f)) := by
  rw [State.submitCall_of_not_admits ha,
    State.submitCall_of_not_admits ((hR.admits h q).trans ha)]
  exact .some (hR.count _ _ (hR.note _ h))

theorem afterDelivery (hR : Transport f p R) (hg : Handles f R g k) (h : R w u) (o : Outlet)
    (b : Bytes) (l : LoggerId) (held : List LoggerId) :
    Option.Rel R
      (match w.deliver o b with
        | (w, none) => some (w.count l .written)
        | (w, some e) => g held l e (w.afterLoss l e))
      (match u.deliver (p o) b with
        | (u, none) => some (u.count (f l) .written)
        | (u, some e) => k (held.map f) (f l) e (u.afterLoss (f l) e)) := by
  obtain ⟨h, he⟩ := hR.deliver o b h
  generalize w.deliver o b = x at h he
  generalize u.deliver (p o) b = y at h he
  obtain ⟨x, e⟩ := x
  obtain ⟨y, e'⟩ := y
  obtain rfl : e = e' := he
  cases e with
  | none => exact .some (hR.count l .written h)
  | some e => exact hg held l e _ _ (hR.count l .writeFailure (hR.note (.lost l e) h))

theorem submitCall (hR : Transport f p R) (hg : Handles f R g k) (h : R w u) (free : Nat)
    (held : List LoggerId) (q : Call) :
    Option.Rel R (w.submitCall g free held q)
      (u.submitCall k free (held.map f) (q.rename f)) := by
  -- The locks that can still be taken are as many on both sides, and one fewer after each logger.
  induction free generalizing held q w u with
  | zero =>
    cases ha : w.admits q with
    | false => exact hR.submitCall_of_not_admits h ha
    | true =>
      rw [submitCall_zero ha, submitCall_zero ((hR.admits h q).trans ha)]
      exact .none
  | succ free ih =>
    cases ha : w.admits q with
    | false => exact hR.submitCall_of_not_admits h ha
    | true =>
      have ha' := (hR.admits h q).trans ha
      by_cases hl : q.logger ∈ held
      · rw [submitCall_of_mem ha hl, submitCall_of_mem ha' (hR.mem_held.mpr hl)]
        exact .none
      · have ho := hR.opened h q
        have hs : (u.logger (q.rename f).logger).sink =
            ((w.logger q.logger).sink.rename f).redirect p := hR.sink h q.logger
        rw [submitCall_succ ha hl, submitCall_succ ha' (mt hR.mem_held.mp hl), hR.lineOf h, hs]
        -- The sink decides: a writer hands the line on, an outlet takes it.
        cases (w.logger q.logger).sink with
        | writer v =>
          have hi := ih ho (q.logger :: held) (w.handedOn q v)
          rw [← hR.handedOn h] at hi
          exact rel_map hi (fun a b hab => hR.count q.logger .written hab)
        | outlet o => exact hR.afterDelivery hg ho o (w.lineOf q) q.logger held

theorem flush (hR : Transport f p R) (h : R w u) (free : Nat) (held : List LoggerId)
    (l : LoggerId) : Agree R (w.flush free held l) (u.flush free (held.map f) (f l)) := by
  induction free generalizing held l with
  | zero =>
    rw [State.flush, State.flush]
    split <;> split <;> exact .none
  | succ free ih =>
    rw [State.flush, State.flush, hR.sink h]
    by_cases hl : l ∈ held
    · rw [if_pos hl, if_pos (hR.mem_held.mpr hl)]
      exact .none
    · rw [if_neg hl, if_neg (mt hR.mem_held.mp hl)]
      -- The sink decides, and both loggers have the same one but for the names.
      cases (w.logger l).sink with
      | writer v =>
        have hi : Agree R (w.flush free (l :: held) v.logger)
            (u.flush free (f l :: held.map f) (f v.logger)) := ih (l :: held) v.logger
        dsimp only [Sink.rename, Sink.redirect, Writer.rename]
        generalize w.flush free (l :: held) v.logger = x at hi
        generalize u.flush free (f l :: held.map f) (f v.logger) = y at hi
        cases hi with
        | some hi => exact .some ⟨hR.note (.flushed l none) hi.1, rfl⟩
        | none => exact .none
      | outlet o =>
        obtain ⟨h, he⟩ := hR.flushOutlet o h
        dsimp only [Sink.rename, Sink.redirect]
        generalize w.flushOutlet o = x at h he
        generalize u.flushOutlet (p o) = y at h he
        obtain ⟨x, e⟩ := x
        obtain ⟨y, e'⟩ := y
        obtain rfl : e = e' := he
        cases e with
        | none => exact .some ⟨hR.note (.flushed l none) h, rfl⟩
        | some e => exact .some ⟨hR.count _ _ (hR.note (.flushed l (some e)) h), rfl⟩

theorem exec_of_flush (hR : Transport f p R) (h : R w u) {c d : Command}
    {r : Option IoError → Reply}
    (hc : ∀ g held w, State.exec g held c w =
      (w.flush w.loggers.size held l).map (fun p => (p.1, r p.2)))
    (hd : ∀ g held w, State.exec g held d w =
      (w.flush w.loggers.size held (f l)).map (fun p => (p.1, r p.2))) :
    Agree R (w.exec g held c) (u.exec k (held.map f) d) := by
  rw [hc, hd, (hR.transported h).size]
  exact rel_map (hR.flush h _ held l) (fun a b hab => ⟨hab.1, congrArg r hab.2⟩)

theorem exec_set (hR : Transport f p R) (h : R w u) (l : LoggerId) (s : Setting) :
    Agree R (w.exec g held (.set l s))
      (u.exec k (held.map f) (.set (f l) ((s.rename f).redirect p))) := by
  have hs := hR.set l s h
  cases s with
  | sink s =>
    simp only [State.exec, change, Setting.rename, Setting.redirect]
    by_cases hl : l ∈ held
    · rw [if_pos hl, if_pos (hR.mem_held.mpr hl)]
      exact .none
    · rw [if_neg hl, if_neg (mt hR.mem_held.mp hl)]
      exact .some ⟨hs, rfl⟩
  | _ => exact .some ⟨hs, rfl⟩

theorem exec_of_no_call (hR : Transport f p R) (h : R w u) (held : List LoggerId) {c : Command}
    (hp : c.Carries p) (hc : c.call? = none) :
    Agree R (w.exec g held c) (u.exec k (held.map f) ((c.rename f).redirect p)) := by
  cases c with
  | log l v tagged m => cases hc
  | logRaw l n tagged m =>
    obtain ⟨e, he⟩ := resolve_of_raw?_none hc
    simp only [Command.rename, Command.redirect, State.exec, he]
    exact .some ⟨h, rfl⟩
  | flush l => exact hR.exec_of_flush (r := flushReplyOf) h (fun _ _ _ => rfl) (fun _ _ _ => rfl)
  | set l s => exact hR.exec_set h l s
  | resetMetrics l => exact .some ⟨hR.reset l h, rfl⟩
  | writeOnce s b =>
    cases s with
    | writer v => cases hc
    | outlet o =>
      exact agree_of_answers (r := countOf) (hR.offer o b h) (writeOnce_outlet g held o b w)
        (writeOnce_outlet k (held.map f) (p o) b u)
  | write s b =>
    cases s with
    | writer v =>
      by_cases hb : b = []
      · subst hb
        exact .some ⟨h, rfl⟩
      · simp [Command.call?, hb] at hc
    | outlet o =>
      exact agree_of_answers (r := replyOf) (hR.deliver o b h) (write_outlet g held o b w)
        (write_outlet k (held.map f) (p o) b u)
  | flushSink s =>
    cases s with
    | writer v =>
      exact hR.exec_of_flush (r := fun _ => .done) h (fun _ _ _ => rfl) (fun _ _ _ => rfl)
    | outlet o =>
      exact agree_of_answers (r := replyOf) (hR.flushOutlet o h) (flushSink_outlet held o w)
        (flushSink_outlet (held.map f) (p o) u)
  | clear i => exact .some ⟨hR.clear i hp h, rfl⟩

theorem exec (hR : Transport f p R) (hg : Handles f R g k) (h : R w u) (held : List LoggerId)
    {c : Command} (hp : c.Carries p) :
    Agree R (w.exec g held c) (u.exec k (held.map f) ((c.rename f).redirect p)) := by
  cases hq : c.call? with
  | some q =>
    have hr : ((c.rename f).redirect p).call? = some (q.rename f) := by
      rw [Command.call?_redirect, Command.call?_rename, hq]
      rfl
    rw [exec_of_call hq, exec_of_call hr, (hR.transported h).size, Command.reply_redirect,
      Command.reply_rename]
    exact rel_map (hR.submitCall hg h _ held q) (fun a b hab => ⟨hab, rfl⟩)
  | none => exact hR.exec_of_no_call h held hp hq

theorem execAll (hR : Transport f p R) (hg : Handles f R g k) (h : R w u) (held : List LoggerId)
    {cs : List Command} (hp : ∀ c ∈ cs, c.Carries p) :
    Option.Rel R (w.execAll g held cs)
      (u.execAll k (held.map f) ((cs.map (·.rename f)).map (·.redirect p))) := by
  induction cs generalizing w u with
  | nil => exact .some h
  | cons c cs ih =>
    obtain ⟨hc, hcs⟩ := List.forall_mem_cons.mp hp
    have hx := hR.exec hg h held hc
    rw [List.map_cons, List.map_cons, State.execAll, State.execAll]
    generalize w.exec g held c = x at hx
    generalize u.exec k (held.map f) ((c.rename f).redirect p) = y at hx
    cases hx with
    | some hx => exact ih hx.1 hcs
    | none => exact .none

theorem onFailure (hR : Transport f p R) (depth : Nat) :
    Handles f R (State.onFailure depth) (State.onFailure depth) := by
  induction depth with
  | zero =>
    intro held l e w u h
    rw [State.onFailure, State.onFailure, (hR.transported h).inHook, hR.hook h]
    split
    · exact .some h
    · split
      · exact .some h
      · exact .none
  | succ depth ih =>
    intro held l e w u h
    have hi := (hR.transported h).inHook
    cases hw : w.inHook with
    | true =>
      rw [onFailure_of_inHook hw, onFailure_of_inHook (hi.trans hw)]
      exact .some h
    | false =>
      cases hh : (w.logger l).hook with
      | none =>
        rw [onFailure_of_no_hook hh, onFailure_of_no_hook ((hR.hook h l).trans hh)]
        exact .some h
      | some j =>
        rw [onFailure_of_hook hw hh, onFailure_of_hook (hi.trans hw) ((hR.hook h l).trans hh),
          (hR.transported h).hooks j]
        have he := hR.note (.hookBegan l j e) (hR.inHook true h)
        exact rel_map (hR.execAll ih he held ((hR.transported h).carries j e))
          (fun x y hx => hR.inHook false (hR.note (.hookEnded l) hx))

theorem perform (hR : Transport f p R) (h : R w u) {c : Command} (hp : c.Carries p) :
    Agree R (w.perform c) (u.perform ((c.rename f).redirect p)) := hR.exec (hR.onFailure 1) h [] hp

end Transport

end State

end LineLogger
