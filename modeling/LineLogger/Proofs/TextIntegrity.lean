import LineLogger.Proofs.Deposits
import LineLogger.Proofs.Lines
import LineLogger.Proofs.ChainDelivery

namespace LineLogger

namespace Text.Utf8

theorem ofString_append (s t : String) : ofString (s ++ t) = ofString s ++ ofString t := by
  rw [ofString, String.toList_append]
  exact List.flatMap_append

/-- Bytes that are whole lines of text. To read them as text and to write that again gives the same
bytes, so they are well formed. -/
structure WholeLines (b : Bytes) : Prop where
  recoded : ofString (toString b) = b
  ended : b = [] ∨ b.getLast? = some 10

namespace WholeLines

theorem nil : WholeLines [] := ⟨rfl, .inl rfl⟩

theorem append {a b : Bytes} (ha : WholeLines a) (hb : WholeLines b) : WholeLines (a ++ b) where
  recoded := by
    rw [← ha.recoded, ← hb.recoded, ← ofString_append, toString_ofString]
  ended := by
    rcases hb.ended with rfl | hl
    · rw [List.append_nil]
      exact ha.ended
    · rw [List.getLast?_append, hl]
      exact .inr rfl

theorem of_line (s : String) : WholeLines (ofString (s ++ "\n")) where
  recoded := by rw [toString_ofString]
  ended := by
    rw [ofString_append, List.getLast?_append]
    exact .inr rfl

end WholeLines

end Text.Utf8

open Text.Utf8 (WholeLines ofString)

namespace Entry

variable {i : BufferId} {e : Entry} {b : Bytes}

theorem wholeLines_applied (hb : WholeLines b) (he : e.intrudes i = false) :
    WholeLines (e.applied i b) := by
  rw [applied]
  split
  · exact .nil
  · rw [bytes_of_not_intrudes he]
    cases e.emission? i with
    | none => exact hb.append .nil
    | some x =>
      simp only [Option.toList_some, List.flatMap_cons, List.flatMap_nil, List.append_nil]
      exact hb.append (.of_line x.content)

theorem wholeLines_foldl {es : List Entry} (hb : WholeLines b)
    (he : ∀ e ∈ es, e.intrudes i = false) : WholeLines (es.foldl (applied i) b) := by
  induction es generalizing b with
  | nil => exact hb
  | cons e es ih =>
    obtain ⟨h, hs⟩ := List.forall_mem_cons.mp he
    exact ih (wholeLines_applied hb h) hs

end Entry

namespace State

variable {w u : State} {c : Command} {q : Call} {r : Reply} {f : OnFailure} {free : Nat}
  {held : List LoggerId} {i : BufferId} {ms : List Moment} {xs : List Line} {v : Writer}

theorem wholeLines_of_fills (h : Fills w u ms) (hw : WholeLines (w.buffers.get i))
    (hm : ∀ m ∈ ms, m.command.intrudes i = false) : WholeLines (u.buffers.get i) := by
  rw [h i]
  apply Entry.wholeLines_foldl hw
  intro e he
  obtain ⟨m, hs, hx⟩ := List.mem_filterMap.mp he
  exact (deposit?_harmless hx i).1 (hm m hs)

theorem descentLines_of_admits (ha : w.admits q = true)
    (h : w.descentLines free held q = some xs) : ∃ ys, xs = w.lineMade q :: ys := by
  rw [descentLines.eq_def, if_pos ha] at h
  split at h
  · cases h
  · split at h
    · cases h
    · split at h
      · obtain ⟨ys, -, rfl⟩ := Option.map_eq_some_iff.mp h
        exact ⟨ys, rfl⟩
      · cases h
        exact ⟨[], rfl⟩

theorem ownLines_of_admits (hq : c.call? = some q) (ha : w.admits q = true)
    (h : w.exec f held c = some (u, r)) :
    ∃ x xs, w.ownLines held c = x :: xs ∧ x.logger = q.logger ∧
      x.message = tag q.label q.message.content := by
  obtain ⟨a, hd, -⟩ := descend_of_exec hq h
  obtain ⟨xs, hx, -⟩ := stamps_descend hd
  obtain ⟨ys, rfl⟩ := descentLines_of_admits ha hx
  exact ⟨w.lineMade q, ys, ownLines_of_call hq hx, rfl, rfl⟩

theorem perform_of_buffer (hq : c.call? = some q) (hz : 0 < w.loggers.size)
    (ha : w.admits q = true) (hs : (w.logger q.logger).sink = .outlet (.buffer i)) :
    ∃ u, w.perform c = some (u, c.reply) ∧
      u.buffers.get i = w.buffers.get i ++ w.lineOf q := by
  obtain ⟨n, hn⟩ := Nat.exists_eq_add_one_of_ne_zero (Nat.ne_zero_of_lt hz)
  have hb := buffers_deliver (w.opened q) (.buffer i) (w.lineOf q) i
  rw [if_pos rfl, buffers_opened] at hb
  rw [perform, exec_of_call hq, hn, submitCall_succ ha (by simp), hs]
  exact ⟨_, rfl, hb⟩

theorem exec_writeOnce_ofString (f : OnFailure) (held : List LoggerId) (v : Writer) (s : String)
    (w : State) : w.exec f held (.writeOnce (.writer v) (ofString s)) =
      (w.exec f held (.log v.logger v.severity false (.text s))).map
        (fun p => (p.1, .count (ofString s).length)) := by
  simp only [exec, writeOnce, submitTo, Text.Utf8.toString_ofString, Option.map_map]
  rfl

/-- What loggers alone put into a buffer is whole lines of text, at every moment and whatever bytes
writers were given. The bytes of a text are logged as this text. -/
theorem buffers_hold_whole_lines :
    (∀ (w : State) (ss : List Step) (i : BufferId), w.inHook = false → w.buffers.get i = [] →
      (∀ m ∈ w.moments ss, m.command.intrudes i = false) →
        (∀ m ∈ w.moments ss, WholeLines (m.state.buffers.get i)) ∧
          ∀ u, w.follow ss = some u → WholeLines (u.buffers.get i)) ∧
    ∀ (w : State) (v : Writer) (s : String),
      (∀ f held, w.exec f held (.writeOnce (.writer v) (ofString s)) =
        (w.exec f held (.log v.logger v.severity false (.text s))).map
          (fun p => (p.1, .count (ofString s).length))) ∧
      ((w.logger v.logger).enabled v.severity = true →
        (∀ f held u r, w.exec f held (.writeOnce (.writer v) (ofString s)) = some (u, r) →
          ∃ x xs, w.ownLines held (.writeOnce (.writer v) (ofString s)) = x :: xs ∧
            x.logger = v.logger ∧ x.message = s) ∧
        ∀ i, 0 < w.loggers.size → (w.logger v.logger).sink = .outlet (.buffer i) →
          ∃ u, w.perform (.writeOnce (.writer v) (ofString s)) =
              some (u, .count (ofString s).length) ∧
            u.buffers.get i = w.buffers.get i ++
              (w.logger v.logger).line (w.clocks.get (w.logger v.logger).clock).now s) := by
  refine ⟨fun w ss i hw hb hm => ?_, fun w v s => ⟨fun f held => ?_, fun ha => ⟨?_, ?_⟩⟩⟩
  · have hn : WholeLines (w.buffers.get i) := hb ▸ .nil
    obtain ⟨ht, hu⟩ := tracks_fills.follow hw ss
    refine ⟨fun m h => ?_, fun u h => wholeLines_of_fills (hu u h) hn hm⟩
    obtain ⟨before, hp, hf⟩ := ht m h
    exact wholeLines_of_fills hf hn fun x hx => hm x (hp.subset hx)
  · exact exec_writeOnce_ofString f held v s w
  · intro f held u r h
    obtain ⟨x, xs, hx, hl, ht⟩ := ownLines_of_admits (q := .written v (ofString s)) rfl ha h
    exact ⟨x, xs, hx, hl, ht.trans (Text.Utf8.toString_ofString s)⟩
  · intro i hz hs
    obtain ⟨u, hu, hb⟩ := perform_of_buffer (c := .writeOnce (.writer v) (ofString s)) rfl hz ha hs
    have ht : (Call.written v (ofString s)).message.content = s := Text.Utf8.toString_ofString s
    rw [lineOf, ht] at hb
    exact ⟨u, hu, hb⟩

def garbled : List Step :=
  [.command (.writeOnce (.writer ⟨1, .warn⟩) [0xFF, 0x61, 0xC3]), .command (.info 0 "é")]

theorem garbled_is_whole_lines :
    (∃ u, relay.follow garbled = some u ∧ WholeLines (u.buffers.get 0) ∧
      u.buffers.get 0 = ofString "01\t00\t\uFFFDa\uFFFD\n\n01\tINF é\n") ∧
    ∃ u x xs, relay.perform (.writeOnce (.writer ⟨0, .warn⟩) (ofString "é")) = some (u, .count 2) ∧
      u.buffers.get 0 = ofString "01\té\n" ∧
        relay.ownLines [] (.writeOnce (.writer ⟨0, .warn⟩) (ofString "é")) = x :: xs ∧
          x.message = "é" := by
  obtain ⟨hr, hw⟩ := buffers_hold_whole_lines
  constructor
  · have hm : ∀ m ∈ relay.moments garbled, m.command.intrudes 0 = false := by decide
    have hb : (relay.follow garbled).map (·.buffers.get 0) =
        some (ofString "01\t00\t\uFFFDa\uFFFD\n\n01\tINF é\n") := by cbv
    obtain ⟨u, hu, hb⟩ := Option.map_eq_some_iff.mp hb
    exact ⟨u, hu, (hr relay garbled 0 rfl rfl hm).2 u hu, hb⟩
  · obtain ⟨hx, hi⟩ := (hw relay ⟨0, .warn⟩ "é").2 (by decide)
    obtain ⟨u, hu, hb⟩ := hi 0 (by decide) rfl
    obtain ⟨x, xs, hl, -, ht⟩ := hx _ _ _ _ hu
    exact ⟨u, x, xs, hu, hb.trans (by cbv), hl, ht⟩

end State

end LineLogger
