import LineLogger.Proofs.ChainDelivery
import LineLogger.Proofs.Delivery

namespace LineLogger.State

open WriteOutcome

variable {c : Command} {q : Call} {w u : State} {i : DeviceId} {b p : Bytes}

/-- A device takes some bytes, and nothing else comes out. -/
structure Takes (w u : State) (i : DeviceId) (p : Bytes) : Prop where
  data : (u.devices.get i).data = (w.devices.get i).data ++ p
  devices : ∀ j, j ≠ i → u.devices.get j = w.devices.get j
  buffers : u.buffers = w.buffers
  files : u.files = w.files
  standardError : u.standardError = w.standardError

theorem takes_of_outlets {e : Option IoError} (h : u.outlets = (w.deliver (.device i) b).1.outlets)
    (hd : Device.Delivers (w.devices.get i) b p ((w.devices.get i).writeAll b).1 e) :
    Takes w u i p := by
  obtain ⟨hb, hs, hf, he⟩ := Outlets.mk.inj h
  have hg : ∀ j, u.devices.get j =
      if j = i then ((w.devices.get i).writeAll b).1 else w.devices.get j := by
    intro j
    rw [hs]
    exact Store.get_put w.devices i j _
  refine ⟨?_, fun j hj => ?_, hb, hf, he⟩
  · rw [hg, if_pos rfl, hd.data]
  · rw [hg, if_neg hj]

theorem hook_of_lost {e : IoError} {es : List Event} {l : LoggerId} {out : Outlets}
    {rs : List LoggerId} {counted : LoggerId → Option Counter} {r : Reply}
    (hw : w.inHook = false) (hx : Leaves w u out rs counted es) (hm : hookMarks es = [])
    (he : w.perform c = (onFailure 1 [] l e u).map (·, r)) :
    match (w.logger l).hook with
    | none => w.perform c = some (u, r)
    | some h =>
      w.perform c = (execAll (onFailure 0) [] ((w.hooks.get h).body e) (u.enterHook l h e)).map
        (fun x => (x.leaveHook l, r)) ∧
      ∀ x r', w.perform c = some (x, r') →
        ∃ fs, x.journal = w.journal ++ fs ∧ hookMarks fs = hookCall l h e := by
  have hi := hx.inHook.trans hw
  cases hh : (w.logger l).hook with
  | none =>
    rw [he, onFailure_of_no_hook ((hx.hook l).trans hh)]
    rfl
  | some h =>
    rw [onFailure_of_hook hi ((hx.hook l).trans hh), hx.hooks, Option.map_map] at he
    refine ⟨he, fun x r' hp => ?_⟩
    obtain ⟨y, hy, hyx⟩ := Option.map_eq_some_iff.mp (he.symm.trans hp)
    obtain ⟨fs, hfs, hm'⟩ := journal_of_hook hy
    cases hyx
    refine ⟨es ++ fs, ?_, ?_⟩
    · rw [hfs, hx.journal, List.append_assoc]
    · rw [hookMarks_append, hm, hm']
      rfl

/-- A logging call on a device gets a prefix of its one line out. The line is lost only if the plan
has a refusal before its end, and then the hook runs once with that refusal. -/
theorem partial_write_accounting (hq : c.call? = some q) (hw : w.inHook = false)
    (hl : q.logger < w.loggers.size) (ha : w.admits q = true)
    (hs : (w.logger q.logger).sink = .outlet (.device i)) :
    let plan := uninterrupted (w.devices.get i).writes
    ∃ p u, p <+: w.lineOf q ∧ (p.length : ℕ∞) = min (room plan) (w.lineOf q).length ∧
      (refusal plan = none → p = w.lineOf q) ∧ Takes w u i p ∧
      (p = w.lineOf q ∧ w.perform c = some (u, c.reply) ∧
          Leaves w u u.outlets [q.logger] (fun k => if k = q.logger then some .written else none)
            [.reached q.logger] ∨
        p ≠ w.lineOf q ∧ ∃ e, refusal plan = some e ∧ e.isInterrupted = false ∧
          Leaves w u u.outlets [q.logger]
            (fun k => if k = q.logger then some .writeFailure else none)
            [.reached q.logger, .lost q.logger e] ∧
          match (w.logger q.logger).hook with
          | none => w.perform c = some (u, c.reply)
          | some h =>
            w.perform c =
              (execAll (onFailure 0) [] ((w.hooks.get h).body e) (u.enterHook q.logger h e)).map
                (fun x => (x.leaveHook q.logger, c.reply)) ∧
            ∀ x r, w.perform c = some (x, r) →
              ∃ es, x.journal = w.journal ++ es ∧ hookMarks es = hookCall q.logger h e) := by
  intro plan
  obtain ⟨p, hp⟩ := (w.devices.get i).delivers_writeAll (w.lineOf q)
  have hc : w.Chained q.logger [] (.device i) := hs
  have hn : (loggersOf q.logger []).Nodup := List.nodup_cons.mpr ⟨by simp, List.nodup_nil⟩
  obtain ⟨a, hd⟩ : ∃ a, w.descend w.loggers.size [] q = some a :=
    exists_descend hc ha (by simp) hn (by simp) (Nat.zero_lt_of_lt hl)
  have hla := lands_of_descend hc ha (by simp) hd
  have hf := hp.failure
  by_cases hpb : p = w.lineOf q
  · rw [if_pos hpb] at hf
    obtain ⟨u, hu, hx⟩ := chain_written hq hd hla hn (chainLine_nil w q ▸ hf) (onFailure 1)
    have ht := takes_of_outlets (chainLine_nil w q ▸ hx.outlets) hp
    have hx' : Leaves w u u.outlets [q.logger] _ [.reached q.logger] := { hx with outlets := rfl }
    simp only [loggersOf, List.map_nil, List.mem_singleton] at hx'
    exact ⟨p, u, hp.isPrefix, hp.length, fun _ => hpb, ht, .inl ⟨hpb, hu, hx'⟩⟩
  · rw [if_neg hpb] at hf
    obtain ⟨e, hr⟩ : ∃ e, refusal plan = some e :=
      Option.ne_none_iff_exists'.mp (fun h => hpb (hp.eq_of_refusal_none h))
    rw [hr] at hf
    have hk : loggersOf q.logger [] = [] ++ [q.logger] := rfl
    obtain ⟨u, hx, he⟩ := chain_lost hq hd hla hk (chainLine_nil w q ▸ hf) (onFailure 1)
    have ht := takes_of_outlets (chainLine_nil w q ▸ hx.outlets) hp
    refine ⟨p, u, hp.isPrefix, hp.length, hp.eq_of_refusal_none, ht, .inr ⟨hpb, e, hr,
      isInterrupted_of_refusal hr, { hx with outlets := rfl }, ?_⟩⟩
    exact hook_of_lost hw hx rfl he

def interrupted : IoError := ⟨.interrupted, "stop"⟩

def choked : State :=
  let device : Device := { writes := [.fails interrupted, .takes 3, .fails interrupted, .takes 0] }
  let only : Logger := { timeFormat := ⟨"%H"⟩, sink := .outlet (.device 0), hook := some 0 }
  let loggers : Store Logger := { fallback := only }
  { loggers := loggers.add only
    buffers := { fallback := [] }
    devices := { fallback := device }
    clocks := { fallback := .fixed ⟨0, 0, 0⟩ }
    hooks := { fallback := ⟨"", fun _ => []⟩ } }

theorem choked_takes_three_bytes : ∃ p x, choked.perform (.info 0 "up") = some (x, .done) ∧
    p.length = 3 ∧ (x.devices.get 0).data = p ∧ x.tally 0 .writeFailure = 1 ∧
      hookMarks x.journal = hookCall 0 0 IoError.nothingTaken := by
  obtain ⟨p, u, -, hn, -, ht, hu⟩ :=
    partial_write_accounting (c := .info 0 "up") (w := choked) rfl rfl (by decide) (by decide) rfl
  have hp : uninterrupted (choked.devices.get 0).writes = [.takes 3, .takes 0] := rfl
  have hlen : (choked.lineOf (.typed 0 .info true (.formatted "up"))).length = 10 := by cbv
  have hr : room [.takes 3, .takes 0] = 3 := by simp [room, refusal?, capacity]
  have h3 : p.length = 3 := by
    rw [hp, hr, hlen] at hn
    have hmin : min (3 : ℕ∞) (10 : ℕ) = (3 : ℕ) := rfl
    exact_mod_cast hn.trans hmin
  obtain ⟨rfl, -⟩ | ⟨-, e, he, -, hx, hh, hm⟩ := hu
  · rw [hlen] at h3
    cases h3
  · cases hp ▸ he
    obtain ⟨es, hj, hes⟩ := hm _ _ hh
    refine ⟨p, _, hh, h3, ht.data, ?_, ?_⟩
    · exact (congrArg (·.metrics.count .writeFailure) (hx.loggers 0)).trans rfl
    · rw [hj]
      exact hes

end LineLogger.State
