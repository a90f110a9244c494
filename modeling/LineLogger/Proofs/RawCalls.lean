import LineLogger.Proofs.ChainDelivery
import LineLogger.Proofs.Formatting

namespace LineLogger

namespace Severity

theorem ordinal_le (v : Severity) : 0 ≤ v.ordinal ∧ v.ordinal ≤ 4 := by
  cases v <;> decide

theorem exists_ordinal {n : Int32} (h0 : 0 ≤ n) (h4 : n ≤ 4) : ∃ v : Severity, v.ordinal = n := by
  have h0' : 0 ≤ n.toInt := Int32.le_iff_toInt_le.mp h0
  have h4' : n.toInt ≤ 4 := Int32.le_iff_toInt_le.mp h4
  have hn : n.toInt = 0 ∨ n.toInt = 1 ∨ n.toInt = 2 ∨ n.toInt = 3 ∨ n.toInt = 4 := by omega
  obtain h | h | h | h | h := hn
  · exact ⟨.error, Int32.toInt_inj.mp h.symm⟩
  · exact ⟨.debug, Int32.toInt_inj.mp h.symm⟩
  · exact ⟨.trace, Int32.toInt_inj.mp h.symm⟩
  · exact ⟨.warn, Int32.toInt_inj.mp h.symm⟩
  · exact ⟨.info, Int32.toInt_inj.mp h.symm⟩

theorem ofOrdinal?_of_gt {n : Int32} (h : 4 < n) : ofOrdinal? n = none := by
  rw [ofOrdinal?, List.find?_eq_none]
  intro v _ hv
  have hn : v.ordinal = n := of_decide_eq_true hv
  have := v.ordinal_le.2
  grind

end Severity

namespace Call

variable {l : LoggerId} {n : Int32} {m : Message}

theorem raw?_ordinal (l : LoggerId) (v : Severity) (tagged : Bool) (m : Message) :
    raw? l v.ordinal tagged m = some (typed l v tagged m) := by
  rw [raw?, Severity.ofOrdinal?_ordinal]

theorem raw?_of_gt (h : 4 < n) (l : LoggerId) (m : Message) :
    raw? l n false m = some ⟨l, n, none, m⟩ := by
  have hn : ¬n < 0 := by grind
  rw [raw?, Severity.ofOrdinal?_of_gt h]
  simp [hn]

theorem raw?_message (l : LoggerId) (n : Int32) (tagged : Bool) (m m' : Message) :
    raw? l n tagged m' = (raw? l n tagged m).map (·.withMessage m') := by
  rw [raw?, raw?]
  split
  · rfl
  · split <;> rfl

end Call

namespace State

variable {w : State} {c : Command} {q : Call} {f : OnFailure} {free depth : Nat}
  {held : List LoggerId} {l : LoggerId} {n : Int32} {m : Message} {vs : List Writer} {o : Outlet}

theorem resolve_of_neg (h : n < 0) (tagged : Bool) :
    resolve n tagged = .error (.invalidSeverity n) := by
  rw [resolve, if_pos h]

theorem resolve_of_gt (h : 4 < n) : resolve n true = .error (.untaggableSeverity n) := by
  have hn : ¬n < 0 := by grind
  rw [resolve, if_neg hn, Severity.ofOrdinal?_of_gt h]
  rfl

theorem exec_of_refused {tagged : Bool} {e : Error} (h : resolve n tagged = .error e)
    (f : OnFailure) (held : List LoggerId) (l : LoggerId) (m : Message) (w : State) :
    w.exec f held (.logRaw l n tagged m) = some (w, .failed e) := by
  rw [exec, h]

theorem submitCall_level (ha : w.admits q = true) (hn : w.admits { q with level := n } = true)
    (f : OnFailure) (free : Nat) (held : List LoggerId) :
    w.submitCall f free held { q with level := n } = w.submitCall f free held q := by
  by_cases hl : q.logger ∈ held
  · exact (submitCall_of_mem hn hl).trans (submitCall_of_mem ha hl).symm
  · cases free with
    | zero => exact (submitCall_zero hn).trans (submitCall_zero ha).symm
    | succ free => exact (submitCall_succ hn hl).trans (submitCall_succ ha hl).symm

/-- Whatever a logger loses, its hook comes to an end. -/
def HookReturns (w : State) (depth : Nat) (l : LoggerId) : Prop :=
  ∀ held e u, u.hooks = w.hooks → u.inHook = w.inHook →
    (u.logger l).hook = (w.logger l).hook → (onFailure depth held l e u).isSome = true

theorem descend_of_chained (hc : w.Chained q.logger vs o) (hn : (loggersOf q.logger vs).Nodup)
    (hh : ∀ k ∈ loggersOf q.logger vs, k ∉ held) (hf : vs.length < free) :
    ∃ a, w.descend free held q = some a ∧
      (a.fate = .filtered ∨ a.path = loggersOf q.logger vs) := by
  induction vs generalizing free held q w with
  | nil =>
    cases ha : w.admits q with
    | false => exact ⟨_, descend_of_not_admits ha, .inl rfl⟩
    | true =>
      obtain ⟨a, h⟩ := exists_descend hc ha (by simp) hn hh hf
      exact ⟨a, h, .inr (lands_of_descend hc ha (by simp) h).path⟩
  | cons v vs ih =>
    cases ha : w.admits q with
    | false => exact ⟨_, descend_of_not_admits ha, .inl rfl⟩
    | true =>
      obtain ⟨n, rfl⟩ := Nat.exists_eq_add_one_of_ne_zero (Nat.ne_zero_of_lt hf)
      obtain ⟨hn', hh'⟩ := not_mem_held hn hh
      obtain ⟨a, h, hp⟩ := ih (q := w.handedOn q v) (chained_opened.mpr hc.2) hn' hh'
        (Nat.lt_of_succ_lt_succ hf)
      rw [descend_succ ha (hh q.logger List.mem_cons_self), hc.1]
      refine ⟨a.via q.logger, congrArg (Option.map _) h, hp.imp_right fun hp => ?_⟩
      rw [Landing.path_via, hp]
      rfl

theorem exec_of_chained (hq : c.call? = some q) (hc : w.Chained q.logger vs o)
    (hn : (loggersOf q.logger vs).Nodup)
    (hs : ∀ k ∈ loggersOf q.logger vs, k < w.loggers.size ∧ k ∉ held ∧ w.HookReturns depth k) :
    ∃ u, w.exec (onFailure depth) held c = some (u, c.reply) := by
  obtain ⟨a, hd, hp⟩ := descend_of_chained hc hn (fun k hk => (hs k hk).2.1)
    (length_lt_size hn (fun k hk => (hs k hk).1))
  rw [exec_of_descend hq _ hd, Landing.settle]
  cases hf : a.fate with
  | filtered => exact ⟨_, rfl⟩
  | written => exact ⟨_, rfl⟩
  | lost e =>
    have hx := Landing.leaves_ended (descends_of_descend hd)
    have hl : a.logger ∈ loggersOf q.logger vs := by
      rw [← hp.resolve_left (hf ▸ Fate.noConfusion)]
      simp [Landing.path]
    have hr := (hs _ hl).2.2 (a.passed ++ held) e a.ended hx.hooks hx.inHook (hx.hook _)
    obtain ⟨x, hx⟩ := Option.isSome_iff_exists.mp hr
    dsimp only
    rw [hx]
    exact ⟨_, rfl⟩

/-- The line of an accepted call goes to the outlet of its logger, which counts what comes of it
and sees to its loss. -/
def Emits (w : State) (f : OnFailure) (held : List LoggerId) (q : Call) (o : Outlet)
    (result : Option (State × Reply)) : Prop :=
  match w.deliver o (w.lineOf q) with
  | (d, none) =>
    ∃ u, result = some (u, .done) ∧ Leaves w u d.outlets [q.logger]
      (fun k => if k = q.logger then some .written else none) [.reached q.logger]
  | (d, some e) =>
    ∃ u, result = (f held q.logger e u).map (·, .done) ∧ Leaves w u d.outlets [q.logger]
      (fun k => if k = q.logger then some .writeFailure else none)
      [.reached q.logger, .lost q.logger e]

theorem emits_of_outlet (hq : c.call? = some q) (hr : c.reply = .done) (ha : w.admits q = true)
    (ho : (w.logger q.logger).sink = .outlet o) (hl : q.logger ∉ held) (hz : 0 < w.loggers.size)
    (f : OnFailure) : w.Emits f held q o (w.exec f held c) := by
  have hc : w.Chained q.logger [] o := ho
  have hn : (loggersOf q.logger []).Nodup := List.nodup_cons.mpr ⟨by simp, List.nodup_nil⟩
  have hh : ∀ k ∈ loggersOf q.logger [], k ∉ held := by
    intro k hk
    rw [List.mem_singleton.mp hk]
    exact hl
  obtain ⟨a, hd⟩ := exists_descend hc ha (by simp) hn hh hz
  have hla := lands_of_descend hc ha (by simp) hd
  have hw := chain_written hq hd hla hn
  have hp : loggersOf q.logger [] = [] ++ [q.logger] := rfl
  have hf := fun e => chain_lost (e := e) hq hd hla hp
  rw [chainLine_nil] at hw hf
  rw [Emits]
  generalize w.deliver o (w.lineOf q) = p at hw hf
  obtain ⟨d, _ | e⟩ := p
  · obtain ⟨u, hu, hx⟩ := hw rfl f
    simp only [loggersOf, List.map_nil, List.mem_singleton] at hx
    exact ⟨u, hr ▸ hu, hx⟩
  · obtain ⟨u, hx, hu⟩ := hf e rfl f
    exact ⟨u, hr ▸ hu, hx⟩

theorem exec_raw_ordinal (w : State) (f : OnFailure) (held : List LoggerId) (l : LoggerId)
    (v : Severity) (tagged : Bool) (m : Message) :
    w.exec f held (.logRaw l v.ordinal tagged m) = w.exec f held (.log l v tagged m) := by
  have hr : (Command.logRaw l v.ordinal tagged m).call? = some (.typed l v tagged m) :=
    Call.raw?_ordinal l v tagged m
  rw [exec_of_call hr, exec_of_call rfl]
  rfl

theorem exec_raw_of_gt (h : 4 < n) (hn : n ≤ (w.logger l).threshold) (f : OnFailure)
    (held : List LoggerId) (m : Message) :
    w.exec f held (.logRaw l n false m) = w.exec f held (.log l .info false m) := by
  have hr : (Command.logRaw l n false m).call? = some ⟨l, n, none, m⟩ := Call.raw?_of_gt h l m
  have h0 : (0 : Int32) ≤ (w.logger l).threshold := by grind
  have hi : w.admits (.typed l .info false m) = true := (admits_iff w _).mpr h0
  have ha : w.admits ⟨l, n, none, m⟩ = true := (admits_iff w _).mpr hn
  rw [exec_of_call hr, exec_of_call rfl]
  exact congrArg (Option.map (·, Reply.done)) (submitCall_level hi ha f _ held)

theorem exec_raw_filtered (h : 4 < n) (hn : ¬n ≤ (w.logger l).threshold) (f : OnFailure)
    (held : List LoggerId) (m : Message) :
    w.exec f held (.logRaw l n false m) =
      some ((w.note (.reached l)).count l .filtered, .done) := by
  have hr : (Command.logRaw l n false m).call? = some ⟨l, n, none, m⟩ := Call.raw?_of_gt h l m
  have ha : w.admits ⟨l, n, none, m⟩ = false := by
    rw [Bool.eq_false_iff, ne_eq, admits_iff]
    exact hn
  rw [exec_of_call hr, submitCall_of_not_admits ha]
  rfl

theorem exists_raw (h0 : 0 ≤ n) {tagged : Bool} (h : n ≤ 4 ∨ tagged = false) (l : LoggerId)
    (m : Message) : ∃ q, (Command.logRaw l n tagged m).call? = some q ∧ q.logger = l := by
  by_cases h4 : n ≤ 4
  · obtain ⟨v, rfl⟩ := Severity.exists_ordinal h0 h4
    exact ⟨_, Call.raw?_ordinal l v tagged m, rfl⟩
  · obtain rfl := h.resolve_left h4
    exact ⟨_, Call.raw?_of_gt (Int32.not_le.mp h4) l m, rfl⟩

theorem exec_raw_formatted (w : State) (depth : Nat) (held : List LoggerId) (l : LoggerId)
    (n : Int32) (tagged : Bool) (m : Message) (s : String) :
    w.exec (onFailure depth) held (.logRaw l n tagged (.formatted s)) =
      (w.exec (onFailure depth) held (.logRaw l n tagged (.text s))).map fun p =>
        (p.1.formats (if (Call.raw? l n tagged m).any w.admits then 1 else 0), p.2) := by
  cases hq : Call.raw? l n tagged m with
  | none =>
    obtain ⟨e, he⟩ := resolve_of_raw?_none hq
    rw [exec_of_refused he, exec_of_refused he]
    rfl
  | some q =>
    have hm : ∀ m', (Command.logRaw l n tagged m').call? = some (q.withMessage m') := by
      intro m'
      exact (Call.raw?_message l n tagged m m').trans (congrArg (Option.map _) hq)
    rw [exec_of_call (hm _), exec_of_call (hm _), submitCall_message, Option.map_map,
      Option.map_map]
    rfl

/-- A bare ordinal that is negative, or above 4 and to be tagged, is refused and nothing has
happened. One up to 4 stands for its severity, and one above is its own level without a label. -/
theorem raw_ordinals (w : State) (depth : Nat) (held : List LoggerId) (l : LoggerId) (n : Int32)
    (tagged : Bool) (m : Message) :
    let f := onFailure depth
    let raw := Command.logRaw l n tagged
    (n < 0 → w.exec f held (raw m) = some (w, .failed (.invalidSeverity n))) ∧
    (4 < n → tagged = true → w.exec f held (raw m) = some (w, .failed (.untaggableSeverity n))) ∧
    (0 ≤ n → n ≤ 4 → ∃ v : Severity, v.ordinal = n ∧ (3 ≤ n → v.effectiveLevel = 0) ∧
      w.exec f held (raw m) = w.exec f held (.log l v tagged m)) ∧
    (4 < n → tagged = false →
      if n ≤ (w.logger l).threshold then
        w.exec f held (raw m) = w.exec f held (.log l .info false m) ∧
          ∀ o, (w.logger l).sink = .outlet o → l ∉ held → 0 < w.loggers.size →
            w.Emits f held ⟨l, n, none, m⟩ o (w.exec f held (raw m))
      else w.exec f held (raw m) = some ((w.note (.reached l)).count l .filtered, .done)) ∧
    (0 ≤ n → (n ≤ 4 ∨ tagged = false) →
      (∀ u r, w.exec f held (raw m) = some (u, r) → r = .done) ∧
      ∀ vs o, w.Chained l vs o → (loggersOf l vs).Nodup →
        (∀ k ∈ loggersOf l vs, k < w.loggers.size ∧ k ∉ held ∧ w.HookReturns depth k) →
          ∃ u, w.exec f held (raw m) = some (u, .done)) ∧
    ∀ s, w.exec f held (raw (.formatted s)) = (w.exec f held (raw (.text s))).map fun p =>
      (p.1.formats (if (Call.raw? l n tagged m).any w.admits then 1 else 0), p.2) := by
  intro f raw
  refine ⟨fun h => ?_, fun h ht => ?_, fun h0 h4 => ?_, fun h ht => ?_, fun h0 h => ⟨?_, ?_⟩, ?_⟩
  · exact exec_of_refused (resolve_of_neg h tagged) f held l m w
  · subst ht
    exact exec_of_refused (resolve_of_gt h) f held l m w
  · obtain ⟨v, rfl⟩ := Severity.exists_ordinal h0 h4
    refine ⟨v, rfl, fun h3 => ?_, exec_raw_ordinal w f held l v tagged m⟩
    revert h3
    cases v <;> decide
  · subst ht
    split
    · next hn =>
      refine ⟨exec_raw_of_gt h hn f held m, fun o ho hl hz => ?_⟩
      have hq : (Command.logRaw l n false m).call? = some ⟨l, n, none, m⟩ := Call.raw?_of_gt h l m
      exact emits_of_outlet hq rfl ((admits_iff w _).mpr hn) ho hl hz f
    · next hn => exact exec_raw_filtered h hn f held m
  · intro u r hu
    obtain ⟨q, hq, -⟩ := exists_raw h0 h l m
    rw [exec_of_call hq] at hu
    obtain ⟨x, -, hx⟩ := Option.map_eq_some_iff.mp hu
    cases hx
    rfl
  · intro vs o hc hn hs
    obtain ⟨q, hq, rfl⟩ := exists_raw h0 h l m
    exact exec_of_chained hq hc hn hs
  · exact exec_raw_formatted w depth held l n tagged m

def verboseRelay : State := relay.modifyLogger 0 (·.set (.verbosity (some (.ofLevel 7))))

theorem verboseRelay_takes_bare_ordinals :
    verboseRelay.perform (.logRaw 1 (-1) false (.text "up")) =
        some (verboseRelay, .failed (.invalidSeverity (-1))) ∧
      verboseRelay.perform (.logRaw 0 5 true (.text "up")) =
        some (verboseRelay, .failed (.untaggableSeverity 5)) ∧
      (∃ u, verboseRelay.perform (.logRaw 1 4 true (.text "up")) = some (u, .done)) ∧
      ∃ u, verboseRelay.perform (.logRaw 0 7 false (.text "up")) = some (u, .done) ∧
        u.buffers.get 0 = Text.Utf8.ofString "01\tup\n" := by
  have hc : verboseRelay.Chained 1 [⟨0, .info⟩] (.buffer 0) := ⟨rfl, rfl⟩
  have hk : ∀ k ∈ loggersOf 1 [⟨0, .info⟩], (verboseRelay.logger k).hook = none := by decide
  have hz : ∀ k ∈ loggersOf 1 [⟨0, .info⟩], k < verboseRelay.loggers.size := by decide
  refine ⟨?_, ?_, ?_, ?_⟩
  · exact (raw_ordinals verboseRelay 1 [] 1 (-1) false (.text "up")).1 (by decide)
  · exact (raw_ordinals verboseRelay 1 [] 0 5 true (.text "up")).2.1 (by decide) rfl
  · refine ((raw_ordinals verboseRelay 1 [] 1 4 true (.text "up")).2.2.2.2.1 (by decide)
      (.inl (by decide))).2 _ _ hc (by decide) fun k hk' => ⟨hz k hk', by simp, ?_⟩
    intro held e u _ _ hu
    rw [onFailure_of_no_hook (hu.trans (hk k hk'))]
    rfl
  · have h := (raw_ordinals verboseRelay 1 [] 0 7 false (.text "up")).2.2.2.1 (by decide) rfl
    rw [if_pos (by decide)] at h
    obtain ⟨u, hu, hx⟩ := h.2 (.buffer 0) rfl (by simp) (by decide)
    exact ⟨u, hu, (congrArg (fun d => d.buffers.get 0) hx.outlets).trans (by cbv)⟩

end State

end LineLogger
