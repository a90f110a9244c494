import LineLogger.Proofs.Appending
import LineLogger.Proofs.Transport

namespace LineLogger

/-- A file and a buffer change places. -/
def exchange (l : Location) (i : BufferId) : Outlet → Outlet
  | .file m => if m = l then .buffer i else .file m
  | .buffer j => if j = i then .file l else .buffer j
  | .standardError => .standardError
  | .device d => .device d

theorem carries_exchange {l : Location} {i : BufferId} {c : Command} (h : c.clears i = false) :
    c.Carries (exchange l i) := by
  cases c with
  | clear j =>
    have hj : ¬j = i := by simpa [Command.clears] using h
    exact if_neg hj
  | _ => trivial

theorem isSteady_exchange (l : Location) (i : BufferId) (o : Outlet) :
    (exchange l i o).isSteady = o.isSteady := by
  cases o with
  | buffer j =>
    rw [exchange]
    split <;> rfl
  | file m =>
    rw [exchange]
    split <;> rfl
  | _ => rfl

theorem exists_device {o : Outlet} (h : o.isSteady = false) : ∃ d, o = .device d := by
  cases o with
  | device d => exact ⟨d, rfl⟩
  | _ => cases h

namespace State

/-- Two states that are the same but for a file and a buffer that changed places. What each has got
since the outlets held `x`, the other has got in its place. -/
structure Exchanged (l : Location) (i : BufferId) (x : Outlets) (w u : State) : Prop where
  size : u.loggers.size = w.loggers.size
  loggers : ∀ k, u.logger k = (w.logger k).redirect (exchange l i)
  clocks : u.clocks = w.clocks
  devices : u.devices = w.devices
  standardError : u.standardError = w.standardError
  hooks : ∀ h, u.hooks.get h = (w.hooks.get h).redirect (exchange l i)
  inHook : u.inHook = w.inHook
  formatted : u.formatted = w.formatted
  journal : u.journal = w.journal
  lasting : ∀ h e, ∀ c ∈ (w.hooks.get h).body e, c.clears i = false
  directories : w.files.directories = x.files.directories
  directories' : u.files.directories = x.files.directories
  buffers : ∀ j, j ≠ i → u.buffers.get j = w.buffers.get j
  files : ∀ m, m ≠ l → u.files.content? m = w.files.content? m
  written : ∃ b, w.files.content l = x.files.content l ++ b ∧
    u.buffers.get i = x.buffers.get i ++ b
  received : ∃ b, w.buffers.get i = x.buffers.get i ++ b ∧
    u.files.content l = x.files.content l ++ b

namespace Exchanged

variable {l m : Location} {i j : BufferId} {x : Outlets} {w u : State} {b : Bytes} {o : Outlet}

theorem transported (h : Exchanged l i x w u) : Transported id (exchange l i) w u where
  size := h.size
  loggers k := by
    refine ⟨(w.logger k).metrics, (h.loggers k).trans ?_⟩
    rw [Logger.rename_id]
    rfl
  clocks := h.clocks
  hooks k := by
    rw [Hook.rename_id]
    exact h.hooks k
  inHook := h.inHook
  carries k e c hc := carries_exchange (h.lasting k e c hc)

theorem modifyLogger (h : Exchanged l i x w u) (k : LoggerId) {f g : Logger → Logger}
    (hfg : ∀ a : Logger, g (a.redirect (exchange l i)) = (f a).redirect (exchange l i)) :
    Exchanged l i x (w.modifyLogger k f) (u.modifyLogger k g) :=
  { h with
    loggers := fun n => by
      rw [logger_modifyLogger, logger_modifyLogger, h.loggers]
      split
      · exact hfg _
      · rfl }

theorem deliver_file (h : Exchanged l i x w u) (b : Bytes) :
    Exchanged l i x (w.deliver (.file l) b).1 (u.deliver (.buffer i) b).1 :=
  { h with
    buffers := fun j hj => by
      refine Eq.trans ?_ (h.buffers j hj)
      exact (Store.get_modify _ _ _ _).trans (if_neg hj)
    files := fun m hm => (h.files m hm).trans (FileTree.content?_append _ hm _).symm
    written := by
      obtain ⟨d, hw, hu⟩ := h.written
      refine ⟨d ++ b, ?_, ?_⟩
      · rw [content_deliver, hw, if_pos rfl, List.append_assoc]
      · rw [buffers_deliver, hu, if_pos rfl, List.append_assoc] }

theorem deliver_buffer (h : Exchanged l i x w u) (b : Bytes) :
    Exchanged l i x (w.deliver (.buffer i) b).1 (u.deliver (.file l) b).1 :=
  { h with
    buffers := fun j hj => by
      refine (h.buffers j hj).trans ?_
      exact ((Store.get_modify _ _ _ _).trans (if_neg hj)).symm
    files := fun m hm => (FileTree.content?_append _ hm _).trans (h.files m hm)
    received := by
      obtain ⟨d, hw, hu⟩ := h.received
      refine ⟨d ++ b, ?_, ?_⟩
      · rw [buffers_deliver, hw, if_pos rfl, List.append_assoc]
      · rw [content_deliver, hu, if_pos rfl, List.append_assoc] }

theorem deliver_other_file (h : Exchanged l i x w u) (hm : m ≠ l) (b : Bytes) :
    Exchanged l i x (w.deliver (.file m) b).1 (u.deliver (.file m) b).1 := by
  have hl : Sink.outlet (.file m) ≠ .outlet (.file l) := by simpa using hm
  exact { h with
    files := fun n hn => by
      change (u.files.append m b).content? n = (w.files.append m b).content? n
      rw [FileTree.append, FileTree.append, FileTree.content?_replace, FileTree.content?_replace,
        FileTree.content, FileTree.content, h.files m hm, h.files n hn]
    written := by
      rw [content_deliver, if_neg hl, List.append_nil]
      exact h.written
    received := by
      rw [content_deliver, if_neg hl, List.append_nil]
      exact h.received }

theorem deliver_other_buffer (h : Exchanged l i x w u) (hj : j ≠ i) (b : Bytes) :
    Exchanged l i x (w.deliver (.buffer j) b).1 (u.deliver (.buffer j) b).1 := by
  have hi : Sink.outlet (.buffer j) ≠ .outlet (.buffer i) := by simpa using hj
  exact { h with
    buffers := fun k hk => by
      rw [buffers_deliver, buffers_deliver, h.buffers k hk]
    written := by
      rw [buffers_deliver, if_neg hi, List.append_nil]
      exact h.written
    received := by
      rw [buffers_deliver, if_neg hi, List.append_nil]
      exact h.received }

theorem device (h : Exchanged l i x w u) (d : Store Device) :
    Exchanged l i x { w with devices := d } { u with devices := d } :=
  { h with devices := rfl }

theorem deliver (h : Exchanged l i x w u) (o : Outlet) (b : Bytes) :
    Exchanged l i x (w.deliver o b).1 (u.deliver (exchange l i o) b).1 ∧
      (w.deliver o b).2 = (u.deliver (exchange l i o) b).2 := by
  cases o with
  | standardError =>
    exact ⟨{ h with standardError := congrArg (· ++ b) h.standardError }, rfl⟩
  | buffer j =>
    by_cases hj : j = i
    · subst hj
      rw [exchange, if_pos rfl]
      exact ⟨h.deliver_buffer b, rfl⟩
    · rw [exchange, if_neg hj]
      exact ⟨h.deliver_other_buffer hj b, rfl⟩
  | device d =>
    rw [exchange, State.deliver, State.deliver, h.devices]
    exact ⟨h.device _, rfl⟩
  | file m =>
    by_cases hm : m = l
    · subst hm
      rw [exchange, if_pos rfl]
      exact ⟨h.deliver_file b, rfl⟩
    · rw [exchange, if_neg hm]
      exact ⟨h.deliver_other_file hm b, rfl⟩

theorem offer (h : Exchanged l i x w u) (o : Outlet) (b : Bytes) :
    Exchanged l i x (w.offer o b).1 (u.offer (exchange l i o) b).1 ∧
      (w.offer o b).2 = (u.offer (exchange l i o) b).2 := by
  have hd := isSteady_exchange l i o
  cases ho : o.isSteady with
  | true =>
    rw [offer_steady ho, offer_steady (hd.trans ho)]
    exact ⟨(h.deliver o b).1, rfl⟩
  | false =>
    obtain ⟨d, rfl⟩ := exists_device ho
    rw [exchange, State.offer, State.offer, h.devices]
    exact ⟨h.device _, rfl⟩

theorem flushOutlet (h : Exchanged l i x w u) (o : Outlet) :
    Exchanged l i x (w.flushOutlet o).1 (u.flushOutlet (exchange l i o)).1 ∧
      (w.flushOutlet o).2 = (u.flushOutlet (exchange l i o)).2 := by
  have hd := isSteady_exchange l i o
  cases ho : o.isSteady with
  | true =>
    rw [flushOutlet_steady ho, flushOutlet_steady (hd.trans ho)]
    exact ⟨h, rfl⟩
  | false =>
    obtain ⟨d, rfl⟩ := exists_device ho
    rw [exchange, State.flushOutlet, State.flushOutlet, h.devices]
    exact ⟨h.device _, rfl⟩

theorem clear (h : Exchanged l i x w u) (hj : exchange l i (.buffer j) = .buffer j) :
    Exchanged l i x { w with buffers := w.buffers.put j [] }
      { u with buffers := u.buffers.put j [] } := by
  have hi : i ≠ j := by
    rintro rfl
    simp [exchange] at hj
  exact { h with
    buffers := fun k hk => by
      rw [Store.get_put, Store.get_put, h.buffers k hk]
    written := by
      rw [Store.get_put_of_ne _ _ hi]
      exact h.written
    received := by
      rw [Store.get_put_of_ne _ _ hi]
      exact h.received }

end Exchanged

theorem transport_exchanged (l : Location) (i : BufferId) (x : Outlets) :
    Transport id (exchange l i) (Exchanged l i x) where
  injective := Function.injective_id
  transported h := h.transported
  note e h := { h with journal := by rw [journal_note, journal_note, h.journal, Event.rename_id] }
  count k _ h := h.modifyLogger k (fun _ => rfl)
  format h := { h with formatted := congrArg (· + 1) h.formatted }
  set k s h := by
    rw [Setting.rename_id]
    exact h.modifyLogger k (fun a => (a.redirect_set s).symm)
  reset k h := h.modifyLogger k (fun _ => rfl)
  clocks _ h := { h with clocks := rfl }
  inHook _ h := { h with inHook := rfl }
  deliver o b h := h.deliver o b
  offer o b h := h.offer o b
  flushOutlet o h := h.flushOutlet o
  clear j hj h := h.clear hj

end State

end LineLogger
