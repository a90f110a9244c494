import LineLogger.Proofs.Moments
import LineLogger.Proofs.Streams

namespace LineLogger

/-- A line as a buffer gets it: the time stamp, and the message with the label that it may have. -/
structure Emission where
  stamp : String
  label : Option Severity
  message : String

namespace Emission

def text (x : Emission) : String := State.tag x.label x.message

def content (x : Emission) : String := Layout.content x.stamp x.text

def bytes (x : Emission) : Bytes := Layout.bytes x.stamp x.text

end Emission

namespace Entry

def emission? (i : BufferId) : Entry → Option Emission
  | .line _ s f now label m =>
    if s = .outlet (.buffer i) then some ⟨f.render now, label, m⟩ else none
  | .written .. => none
  | .cleared _ => none

def intrudes (i : BufferId) : Entry → Bool
  | .written s _ => s = .outlet (.buffer i)
  | .line .. => false
  | .cleared _ => false

variable {i : BufferId} {e : Entry}

theorem bytes_of_not_intrudes (h : e.intrudes i = false) :
    e.bytes i = (e.emission? i).toList.flatMap (·.bytes) := by
  cases e with
  | written s b =>
    have hs : s ≠ .outlet (.buffer i) := by simpa [intrudes] using h
    simp [bytes, emission?, hs]
  | line l s f now label m =>
    simp only [bytes, emission?]
    split <;> simp [Emission.bytes, Emission.text]
  | cleared j => rfl

end Entry

namespace Command

/-- Whether a command writes to a buffer past the loggers. -/
def intrudes (i : BufferId) : Command → Bool
  | .writeOnce (.outlet o) _ => o = .buffer i
  | .write (.outlet o) _ => o = .buffer i
  | _ => false

def clears (i : BufferId) : Command → Bool
  | .clear j => j = i
  | _ => false

end Command

namespace State

/-- What a call puts where the way of its line ends: the line of the last logger on it, if that one
lets the line through. -/
def lastEntry : Nat → Call → State → Option Entry
  | 0, _, _ => none
  | free + 1, q, w =>
    if w.admits q then
      match (w.logger q.logger).sink with
      | .writer v => lastEntry free (w.handedOn q v) (w.opened q)
      | .outlet _ => w.setup.line? q
    else none

end State

namespace Moment

/-- What a command does to the content of the buffers, its line handed on by writers. -/
def deposit? (m : Moment) : Option Entry :=
  match m.command.call? with
  | some q => m.state.lastEntry m.state.loggers.size q
  | none => m.state.setup.entry? m.command

def emission? (i : BufferId) (m : Moment) : Option Emission := m.deposit?.bind (·.emission? i)

end Moment

namespace State

variable {w u v : State} {c : Command} {q : Call} {a : Landing} {r : Reply} {f : OnFailure}
  {free : Nat} {held : List LoggerId} {ms ns : List Moment} {i : BufferId}

theorem lastEntry_of_outlet {o : Outlet} (ha : w.admits q = true)
    (hs : (w.logger q.logger).sink = .outlet o) :
    w.lastEntry (free + 1) q = w.setup.line? q := by
  rw [lastEntry, if_pos ha, hs]

theorem lastEntry_of_writer {v : Writer} (ha : w.admits q = true)
    (hs : (w.logger q.logger).sink = .writer v) :
    w.lastEntry (free + 1) q = (w.opened q).lastEntry free (w.handedOn q v) := by
  rw [lastEntry, if_pos ha, hs]

theorem lastEntry_of_not_admits (ha : w.admits q = false) : w.lastEntry free q = none := by
  cases free <;> simp [lastEntry, ha]

theorem line?_harmless {s : Setup} {e : Entry} (h : s.line? q = some e) (i : BufferId) :
    e.intrudes i = false ∧ e.clears i = false := by
  simp only [Setup.line?, Option.ite_none_right_eq_some, Option.some.injEq] at h
  obtain ⟨-, rfl⟩ := h
  exact ⟨rfl, rfl⟩

theorem lastEntry_harmless {e : Entry} (h : w.lastEntry free q = some e) (i : BufferId) :
    e.intrudes i = false ∧ e.clears i = false := by
  fun_induction lastEntry free q w with
  | case1 => cases h
  | case2 q w free ha v hs ih => exact ih h
  | case3 q w free ha o hs => exact line?_harmless h i
  | case4 => cases h

theorem deposit?_harmless {m : Moment} {e : Entry} (h : m.deposit? = some e) (i : BufferId) :
    (m.command.intrudes i = false → e.intrudes i = false) ∧
      (m.command.clears i = false → e.clears i = false) := by
  rw [Moment.deposit?] at h
  split at h
  · have he := lastEntry_harmless h i
    exact ⟨fun _ => he.1, fun _ => he.2⟩
  · next hc =>
    rw [Setup.entry?.eq_def] at h
    split at h
    · next hm =>
      cases h
      rw [hm]
      exact ⟨fun _ => rfl, id⟩
    · next hm =>
      cases h
      rw [hm]
      exact ⟨fun hi => by simpa [Command.intrudes, Entry.intrudes] using hi, fun _ => rfl⟩
    · next hm =>
      cases h
      rw [hm]
      exact ⟨fun hi => by simpa [Command.intrudes, Entry.intrudes] using hi, fun _ => rfl⟩
    · rw [hc] at h
      cases h

/-- A part of what the outlets hold, changed by the entries one after the other. -/
structure Account {α : Type} (g : State → α) (apply : α → Entry → α) : Prop where
  congr : ∀ {w u : State}, u.outlets = w.outlets → g u = g w
  deliver : ∀ w o b, g (w.deliver o b).1 = apply (g w) (.written (.outlet o) b)
  offer : ∀ w o b, g (w.offer o b).1 = apply (g w) (.written (.outlet o) b)
  flushOutlet : ∀ w o, g (w.flushOutlet o).1 = g w
  clear : ∀ w j, g { w with buffers := w.buffers.put j [] } = apply (g w) (.cleared j)
  line : ∀ x l o f now label m, apply x (.line l (.outlet o) f now label m) =
    apply x (.written (.outlet o) (Emission.bytes ⟨f.render now, label, m⟩))

namespace Account

variable {α : Type} {g : State → α} {apply : α → Entry → α}

theorem deliver_line (hg : Account g apply) {o : Outlet} (ha : w.admits q = true)
    (hs : (w.logger q.logger).sink = .outlet o) :
    g ((w.opened q).deliver o (w.lineOf q)).1 = (w.setup.line? q).toList.foldl apply (g w) := by
  have hr : w.setup.accepts q = true := ha
  have hk : (w.setup.settings q.logger).sink = .outlet o := hs
  rw [Setup.line?, hr, hk, if_pos rfl, hg.deliver, hg.congr (outlets_opened w q)]
  exact (hg.line ..).symm

theorem descend (hg : Account g apply) (h : w.descend free held q = some a) :
    g a.state = (w.lastEntry free q).toList.foldl apply (g w) := by
  fun_induction State.descend free held q w generalizing a with
  | case1 => cases h
  | case2 => cases h
  | case3 held q w ha hl free v hs ih =>
    obtain ⟨b, hb, rfl⟩ := Option.map_eq_some_iff.mp h
    rw [lastEntry_of_writer ha hs, ← hg.congr (outlets_opened w q)]
    have hi := ih hb
    exact hi
  | case4 held q w ha hl free o hs =>
    cases h
    rw [lastEntry_of_outlet ha hs]
    exact hg.deliver_line ha hs
  | case5 free held q w ha =>
    cases h
    rw [lastEntry_of_not_admits (by simpa using ha)]
    exact hg.congr rfl

theorem flush (hg : Account g apply) {l : LoggerId} {x : Option IoError}
    (h : w.flush free held l = some (u, x)) : g u = g w :=
  flush_frame (fun _ _ => hg.congr rfl) (fun _ _ => hg.congr rfl) hg.flushOutlet h

theorem of_no_call (hg : Account g apply) (hc : c.call? = none)
    (h : w.exec f held c = some (u, r)) :
    g u = (w.setup.entry? c).toList.foldl apply (g w) := by
  cases c with
  | log l v tagged m => cases hc
  | logRaw l n tagged m =>
    obtain ⟨e, he⟩ := resolve_of_raw?_none hc
    have hn : w.setup.entry? (.logRaw l n tagged m) = none :=
      congrArg (Option.bind · w.setup.line?) hc
    simp only [exec, he] at h
    cases h
    rw [hn]
    rfl
  | flush l =>
    obtain ⟨⟨v, x⟩, hv, he⟩ := Option.map_eq_some_iff.mp h
    cases he
    exact hg.flush hv
  | set l s =>
    obtain ⟨rfl, -⟩ := change_cases h
    exact hg.congr rfl
  | resetMetrics l =>
    cases h
    exact hg.congr rfl
  | writeOnce s b =>
    cases s with
    | writer v => cases hc
    | outlet o =>
      cases (writeOnce_outlet f held o b w).symm.trans h
      exact hg.offer w o b
  | write s b =>
    cases s with
    | writer v =>
      have hn : w.setup.entry? (.write (.writer v) b) = none :=
        congrArg (Option.bind · w.setup.line?) hc
      by_cases hb : b = []
      · subst hb
        cases h
        rfl
      · simp [Command.call?, hb] at hc
    | outlet o =>
      cases (write_outlet f held o b w).symm.trans h
      exact hg.deliver w o b
  | flushSink s =>
    cases s with
    | writer v =>
      obtain ⟨⟨v, x⟩, hv, he⟩ := Option.map_eq_some_iff.mp h
      cases he
      exact hg.flush hv
    | outlet o =>
      cases (flushSink_outlet held o w).symm.trans h
      exact hg.flushOutlet w o
  | clear j =>
    cases h
    exact hg.clear w j

def Settled (g : State → α) (apply : α → Entry → α) (w u : State) (ms : List Moment) : Prop :=
  g u = (ms.filterMap (·.deposit?)).foldl apply (g w)

theorem settled_of_entry {m : Moment} (h : g u = m.deposit?.toList.foldl apply (g w)) :
    Settled g apply w u [m] := by
  rw [Settled, h]
  cases he : m.deposit? <;> simp [he]

theorem tracks (hg : Account g apply) : Tracks (Settled g apply) where
  refl w := rfl
  trans h h' := by
    rw [Settled, h', h, List.filterMap_append, List.foldl_append]
  call hc ha := by
    apply settled_of_entry
    have he := (Landing.leaves_ended (descends_of_descend ha)).outlets
    rw [Moment.deposit?, hc]
    exact (hg.congr he).trans (hg.descend ha)
  plain hc h := by
    apply settled_of_entry
    rw [Moment.deposit?, hc]
    exact hg.of_no_call hc h
  back w ls := hg.congr (countAll_frame (fun _ _ => rfl) w ls)
  enter w l h e := hg.congr rfl
  leave w l := hg.congr rfl
  create w b := hg.congr rfl

end Account

theorem account_buffer (i : BufferId) : Account (·.buffers.get i) (Entry.applied i) where
  congr h := congrArg (fun d => d.buffers.get i) h
  deliver w o b := buffers_deliver w o b i
  offer w o b := by
    cases o with
    | device j => exact buffers_deliver w (.device j) b i
    | _ => exact buffers_deliver w _ b i
  flushOutlet w o := by cases o <;> rfl
  clear w j := buffers_clear w j i
  line x l o f now label m := rfl

/-- Every buffer has got what the commands put into it. -/
def Fills (w u : State) (ms : List Moment) : Prop :=
  ∀ i, u.buffers.get i = (ms.filterMap (·.deposit?)).foldl (Entry.applied i) (w.buffers.get i)

theorem tracks_fills : Tracks Fills where
  refl w i := (account_buffer i).tracks.refl w
  trans h h' i := (account_buffer i).tracks.trans (h i) (h' i)
  call hc ha i := (account_buffer i).tracks.call hc ha
  plain hc h i := (account_buffer i).tracks.plain hc h
  back w ls i := (account_buffer i).tracks.back w ls
  enter w l h e i := (account_buffer i).tracks.enter w l h e
  leave w l i := (account_buffer i).tracks.leave w l
  create w b i := (account_buffer i).tracks.create w b

end State

end LineLogger
