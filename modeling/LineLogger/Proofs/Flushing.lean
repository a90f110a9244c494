import LineLogger.Proofs.ChainDelivery
import LineLogger.Proofs.Footprint
import LineLogger.Proofs.HookDiscipline

namespace LineLogger

namespace Device

variable {d : Device} {es fs : List (Option IoError)}

def flushed (d : Device) (es : List (Option IoError)) : Device :=
  { d with flushes := d.flushes.drop es.length, calls := d.calls ++ es.map .flush }

theorem flushed_nil (d : Device) : d.flushed [] = d := by simp [flushed]

theorem flushed_flushed (d : Device) (es fs : List (Option IoError)) :
    (d.flushed es).flushed fs = d.flushed (es ++ fs) := by
  simp [flushed, List.drop_drop, List.append_assoc]

theorem afterFlush_eq (d : Device) : d.afterFlush = d.flushed [d.flushFailure] := by
  simp [afterFlush, flushed, List.drop_one]

end Device

namespace State

variable {w u v : State} {l k m : LoggerId} {vs us : List Writer} {x : Writer} {o p : Outlet}
  {e : Option IoError} {es fs : List (Option IoError)} {c : Command} {cs : List Command}
  {free : Nat} {held : List LoggerId}

theorem Chained.unique (hc : w.Chained l vs o) (hc' : w.Chained l us p) : vs = us := by
  induction vs generalizing l us with
  | nil =>
    cases us with
    | nil => rfl
    | cons y us =>
      have h := Eq.trans (Eq.symm hc) hc'.1
      cases h
  | cons x vs ih =>
    cases us with
    | nil =>
      have h := Eq.trans (Eq.symm hc.1) hc'
      cases h
    | cons y us =>
      cases hc.1.symm.trans hc'.1
      rw [ih hc.2 hc'.2]

theorem Chained.behind (hc : w.Chained l vs o) (hm : m ∈ loggersOf l vs) :
    ∃ us, w.Chained m us o ∧ us <:+ vs ∧
      (loggersOf m us).getLast? = (loggersOf l vs).getLast? := by
  induction vs generalizing l with
  | nil =>
    obtain rfl := List.mem_singleton.mp hm
    exact ⟨[], hc, List.suffix_rfl, rfl⟩
  | cons x vs ih =>
    obtain rfl | hm := List.mem_cons.mp hm
    · exact ⟨x :: vs, hc, List.suffix_rfl, rfl⟩
    · obtain ⟨us, hu, hs, hl⟩ := ih hc.2 hm
      exact ⟨us, hu, hs.trans (List.suffix_cons x vs), hl⟩

theorem Chained.nodup (hc : w.Chained l vs o) : (loggersOf l vs).Nodup := by
  induction vs generalizing l with
  | nil => exact List.nodup_singleton l
  | cons x vs ih =>
    refine List.nodup_cons.mpr ⟨fun hl => ?_, ih hc.2⟩
    obtain ⟨us, hu, hs, -⟩ := hc.2.behind hl
    have hlen := hs.length_le
    rw [← hc.unique hu] at hlen
    exact absurd hlen (Nat.not_succ_le_self _)

def failures (es : List (Option IoError)) : UInt64 := .ofNat (es.countP (·.isSome))

def isFlushOf (k : LoggerId) : Event → Bool
  | .flushed m _ => m = k
  | _ => false

/-- What lies between two states is that an outlet was flushed with these outcomes, and that the
logger of the outlet counted the failures. No byte was written and no hook ran. -/
structure Flushed (w u : State) (k : LoggerId) (o : Outlet) (es : List (Option IoError)) :
    Prop where
  devices : ∀ i, u.devices.get i =
    if o = .device i then (w.devices.get i).flushed es else w.devices.get i
  buffers : u.buffers = w.buffers
  files : u.files = w.files
  tally : ∀ m d, u.tally m d = w.tally m d + if m = k ∧ d = .flushFailure then failures es else 0
  bare : ∀ m, (u.logger m).bare = (w.logger m).bare
  journal : ∃ fs, u.journal = w.journal ++ fs ∧ hookMarks fs = [] ∧
    fs.filter (isFlushOf k) = es.map (.flushed k)
  clocks : u.clocks = w.clocks
  hooks : u.hooks = w.hooks
  inHook : u.inHook = w.inHook
  size : u.loggers.size = w.loggers.size

theorem failures_append (es fs : List (Option IoError)) :
    failures (es ++ fs) = failures es + failures fs := by
  rw [failures, List.countP_append, UInt64.ofNat_add]
  rfl

namespace Flushed

theorem refl (w : State) (k : LoggerId) (o : Outlet) : Flushed w w k o [] where
  devices i := by rw [Device.flushed_nil, ite_self]
  buffers := rfl
  files := rfl
  tally m d := by
    have h : failures [] = 0 := rfl
    rw [h, ite_self, UInt64.add_zero]
  bare _ := rfl
  journal := ⟨[], (List.append_nil _).symm, rfl, rfl⟩
  clocks := rfl
  hooks := rfl
  inHook := rfl
  size := rfl

theorem trans (h : Flushed w u k o es) (h' : Flushed u v k o fs) : Flushed w v k o (es ++ fs) where
  devices i := by
    rw [h'.devices, h.devices]
    split
    · exact Device.flushed_flushed _ es fs
    · rfl
  buffers := h'.buffers.trans h.buffers
  files := h'.files.trans h.files
  tally m d := by
    rw [h'.tally, h.tally, UInt64.add_assoc]
    split
    · rw [failures_append]
    · rfl
  bare m := (h'.bare m).trans (h.bare m)
  journal := by
    obtain ⟨xs, hx, hm, hf⟩ := h.journal
    obtain ⟨ys, hy, hm', hf'⟩ := h'.journal
    refine ⟨xs ++ ys, ?_, ?_, ?_⟩
    · rw [hy, hx, List.append_assoc]
    · rw [hookMarks_append, hm, hm']
      rfl
    · rw [List.filter_append, hf, hf', List.map_append]
  clocks := h'.clocks.trans h.clocks
  hooks := h'.hooks.trans h.hooks
  inHook := h'.inHook.trans h.inHook
  size := h'.size.trans h.size

theorem sink (h : Flushed w u k o es) (m : LoggerId) : (u.logger m).sink = (w.logger m).sink := by
  have hb := congrArg Logger.sink (h.bare m)
  exact hb

theorem note (h : Flushed w u k o es) (hm : m ≠ k) :
    Flushed w (u.note (.flushed m none)) k o es where
  devices := h.devices
  buffers := h.buffers
  files := h.files
  tally := h.tally
  bare := h.bare
  journal := by
    obtain ⟨xs, hx, hm', hf⟩ := h.journal
    refine ⟨xs ++ [.flushed m none], ?_, ?_, ?_⟩
    · rw [journal_note, hx, List.append_assoc]
    · rw [hookMarks_append, hm']
      rfl
    · rw [List.filter_append, hf, List.filter_cons_of_neg (by simpa [isFlushOf] using hm)]
      exact List.append_nil _
  clocks := h.clocks
  hooks := h.hooks
  inHook := h.inHook
  size := h.size

end Flushed

def flushedAt (w : State) (k : LoggerId) (o : Outlet) : State :=
  let u := (w.flushOutlet o).1.note (.flushed k (w.flushOutlet o).2)
  if (w.flushOutlet o).2.isSome then u.count k .flushFailure else u

theorem flush_last (hs : (w.logger k).sink = .outlet o) (hk : k ∉ held) :
    w.flush (free + 1) held k = some (w.flushedAt k o, (w.flushOutlet o).2) := by
  rw [flush, if_neg hk, hs, flushedAt]
  dsimp only
  rcases w.flushOutlet o with ⟨u, _ | e⟩ <;> rfl

theorem flushedAt_frame {α : Type} {f : State → α} (hn : ∀ w e, f (w.note e) = f w)
    (hc : ∀ w l, f (w.count l .flushFailure) = f w) (ho : ∀ w o, f (w.flushOutlet o).1 = f w)
    (w : State) (k : LoggerId) (o : Outlet) : f (w.flushedAt k o) = f w := by
  have h := (hn (w.flushOutlet o).1 (.flushed k (w.flushOutlet o).2)).trans (ho w o)
  rw [flushedAt]
  split
  · exact (hc _ k).trans h
  · exact h

theorem get_devices_flushOutlet (w : State) (o : Outlet) (i : DeviceId) :
    (w.flushOutlet o).1.devices.get i =
      if o = .device i then (w.devices.get i).flushed [(w.flushOutlet o).2]
      else w.devices.get i := by
  cases o with
  | device j =>
    rw [flushOutlet, Store.get_modify]
    by_cases hi : i = j
    · subst hi
      rw [if_pos rfl, if_pos rfl, Device.afterFlush_eq]
    · rw [if_neg hi, if_neg fun h => hi (Outlet.device.inj h).symm]
  | _ => rfl

theorem tally_flushedAt (w : State) (k : LoggerId) (o : Outlet) (m : LoggerId) (d : Counter) :
    (w.flushedAt k o).tally m d =
      w.tally m d + if m = k ∧ d = .flushFailure then failures [(w.flushOutlet o).2] else 0 := by
  have h : (w.flushOutlet o).1.tally m d = w.tally m d := by cases o <;> rfl
  rw [flushedAt, ← h]
  cases (w.flushOutlet o).2 with
  | none =>
    have hz : failures [none] = 0 := rfl
    rw [hz, ite_self, UInt64.add_zero]
    rfl
  | some e =>
    refine (tally_count _ k m .flushFailure d).trans ?_
    simp only [@eq_comm _ d]
    rfl

theorem journal_flushedAt (w : State) (k : LoggerId) (o : Outlet) :
    (w.flushedAt k o).journal = w.journal ++ [.flushed k (w.flushOutlet o).2] := by
  have h : (w.flushOutlet o).1.journal = w.journal := by cases o <;> rfl
  rw [flushedAt, ← h]
  split <;> rfl

theorem flushed_flushedAt (w : State) (k : LoggerId) (o : Outlet) :
    Flushed w (w.flushedAt k o) k o [(w.flushOutlet o).2] := by
  have hd : (w.flushedAt k o).devices = (w.flushOutlet o).1.devices := by
    rw [flushedAt]
    split <;> rfl
  have hb : ∀ m, ((w.flushedAt k o).logger m).bare = (w.logger m).bare := by
    intro m
    refine flushedAt_frame (f := fun w => (w.logger m).bare) (fun _ _ => rfl) (fun w l => ?_)
      (fun _ o => by cases o <;> rfl) w k o
    rw [logger_count]
    split <;> rfl
  have hframe := flushedAt_frame
    (f := fun w => (w.buffers, w.files, w.clocks, w.hooks, w.inHook, w.loggers.size))
    (fun _ _ => rfl) (fun _ _ => rfl) (fun _ o => by cases o <;> rfl) w k o
  simp only [Prod.mk.injEq] at hframe
  obtain ⟨hbuf, hf, hc, hh, hi, hs⟩ := hframe
  exact {
    devices := fun i => by rw [hd, get_devices_flushOutlet]
    buffers := hbuf
    files := hf
    tally := tally_flushedAt w k o
    bare := hb
    journal := ⟨_, journal_flushedAt w k o, rfl, by simp [isFlushOf]⟩
    clocks := hc
    hooks := hh
    inHook := hi
    size := hs }

/-- A flush that begins anywhere in a chain flushes the outlet once. Only the last logger tells
whether it failed. -/
theorem flush_chained (hc : w.Chained l vs o) (hk : (loggersOf l vs).getLast? = some k)
    (hh : ∀ m ∈ loggersOf l vs, m ∉ held) (hf : vs.length < free) :
    ∃ u, w.flush free held l = some (u, if l = k then (w.flushOutlet o).2 else none) ∧
      Flushed w u k o [(w.flushOutlet o).2] := by
  induction vs generalizing free held l with
  | nil =>
    obtain ⟨n, rfl⟩ := Nat.exists_eq_add_one_of_ne_zero (Nat.ne_zero_of_lt hf)
    obtain rfl : l = k := by simpa [loggersOf] using hk
    exact ⟨_, by rw [flush_last hc (hh l List.mem_cons_self), if_pos rfl], flushed_flushedAt w l o⟩
  | cons x vs ih =>
    obtain ⟨n, rfl⟩ := Nat.exists_eq_add_one_of_ne_zero (Nat.ne_zero_of_lt hf)
    have hn := hc.nodup
    obtain ⟨-, hh'⟩ := not_mem_held hn hh
    have hk' : (loggersOf x.logger vs).getLast? = some k := hk
    obtain ⟨u, hu, hx⟩ := ih hc.2 hk' hh' (Nat.lt_of_succ_lt_succ hf)
    have hl : l ≠ k := by
      rintro rfl
      exact (List.nodup_cons.mp hn).1 (List.mem_of_getLast? hk')
    refine ⟨u.note (.flushed l none), ?_, hx.note hl⟩
    rw [flush, if_neg (hh l List.mem_cons_self), hc.1]
    dsimp only
    rw [hu, if_neg hl]

end State

end LineLogger
