import LineLogger.Proofs.PartialWrites
import LineLogger.Proofs.RawCalls
import LineLogger.Proofs.TextIntegrity
import LineLogger.Writer

namespace LineLogger

def Command.ofSeverity : Severity → LoggerId → String → Command
  | .error => error
  | .debug => debug
  | .trace => trace
  | .warn => warn
  | .info => info

theorem Command.ofSeverity_eq (v : Severity) (l : LoggerId) (s : String) :
    Command.ofSeverity v l s = .log l v true (.formatted s) := by cases v <;> rfl

namespace State

open Text.Utf8 (ofString)

variable {w u : State} {q : Call} {a : Landing} {f : OnFailure} {free depth : Nat}
  {held : List LoggerId} {l : LoggerId} {v : Severity} {b : Bytes} {r : Reply}

theorem submitCall_label (w : State) (f : OnFailure) (free : Nat) (held : List LoggerId)
    (l : LoggerId) (n : Int32) (label : Option Severity) (s : String) :
    w.submitCall f free held ⟨l, n, label, .text s⟩ =
      w.submitCall f free held ⟨l, n, none, .text (tag label s)⟩ := by
  cases ha : w.admits ⟨l, n, label, .text s⟩ with
  | false =>
    have ha' : w.admits ⟨l, n, none, .text (tag label s)⟩ = false := ha
    exact (submitCall_of_not_admits ha).trans (submitCall_of_not_admits ha').symm
  | true =>
    have ha' : w.admits ⟨l, n, none, .text (tag label s)⟩ = true := ha
    by_cases hl : l ∈ held
    · exact (submitCall_of_mem ha hl).trans (submitCall_of_mem ha' hl).symm
    · cases free with
      | zero => exact (submitCall_zero ha).trans (submitCall_zero ha').symm
      | succ free => exact (submitCall_succ ha hl).trans (submitCall_succ ha' hl).symm

theorem exec_tagged (w : State) (f : OnFailure) (held : List LoggerId) (l : LoggerId)
    (v : Severity) (s : String) :
    w.exec f held (.log l v false (.text (v.abbreviation ++ " " ++ s))) =
      w.exec f held (.log l v true (.text s)) := by
  rw [exec_of_call rfl, exec_of_call rfl]
  exact congrArg (Option.map _) (submitCall_label w f _ held l v.effectiveLevel (some v) s).symm

theorem exec_formatted (w : State) (depth : Nat) (held : List LoggerId) (l : LoggerId)
    (v : Severity) (tagged : Bool) (s : String) :
    w.exec (onFailure depth) held (.log l v tagged (.formatted s)) =
      (w.exec (onFailure depth) held (.log l v tagged (.text s))).map fun p =>
        (p.1.formats (if (w.logger l).enabled v then 1 else 0), p.2) := by
  have hm := submitCall_message w depth w.loggers.size held (.typed l v tagged (.text s)) s
  rw [exec_of_call rfl, exec_of_call rfl, Option.map_map]
  exact (congrArg (Option.map _) hm).trans (Option.map_map ..)

theorem exec_write_ofString (f : OnFailure) (held : List LoggerId) (v : Writer) {s : String}
    (hs : s ≠ "") (w : State) : w.exec f held (.write (.writer v) (ofString s)) =
      w.exec f held (.log v.logger v.severity false (.text s)) := by
  have hb : ofString s ≠ [] := fun he =>
    hs ((Text.Utf8.toString_ofString s).symm.trans (congrArg Text.Utf8.toString he))
  have hq : (Command.write (.writer v) (ofString s)).call? = some (.written v (ofString s)) :=
    if_neg hb
  rw [exec_of_call hq, exec_of_call rfl, Call.written, Text.Utf8.toString_ofString]
  rfl

theorem formatted_descend {s : String} (hm : q.message = .text s)
    (h : w.descend free held q = some a) : a.state.formatted = w.formatted := by
  fun_induction descend free held q w generalizing a s with
  | case1 => cases h
  | case2 => cases h
  | case3 held q w ha hl free o hs ih =>
    obtain ⟨c, hc, rfl⟩ := Option.map_eq_some_iff.mp h
    have ho : (w.opened q).formatted = w.formatted := by rw [opened, hm]; rfl
    exact (ih rfl hc).trans ho
  | case4 held q w ha hl free o hs =>
    cases h
    have hd : ((w.opened q).deliver o (w.lineOf q)).1.formatted = (w.opened q).formatted := by
      cases o <;> rfl
    exact hd.trans (by rw [opened, hm]; rfl)
  | case5 =>
    cases h
    rfl

theorem formatted_counted (a : Landing) : a.counted.formatted = a.state.formatted := by
  refine (countAll_frame (fun _ _ => rfl) a.ended a.passed).trans ?_
  rw [Landing.ended]
  cases a.fate <;> rfl

/-- No hook can run: the thread is inside one, or there is none. -/
def Hookless (w : State) : Prop := w.inHook = true ∨ ∀ k, (w.logger k).hook = none

theorem formatted_of_hookless {s : String} (hw : w.Hookless) (hm : q.message = .text s)
    (h : w.submitCall (onFailure depth) free held q = some u) : u.formatted = w.formatted := by
  rw [submitCall_eq_descend] at h
  obtain ⟨a, ha, hs⟩ := Option.bind_eq_some_iff.mp h
  have hd := descends_of_descend ha
  have hc : a.settle (onFailure depth) held = some a.counted := by
    obtain hi | hn := hw
    · exact Landing.settle_of_inHook (hd.inHook.trans hi) depth held
    · refine Landing.settle_of_no_hook (fun e _ => ?_) depth held
      rw [logger, hd.loggers]
      exact hn a.logger
  cases hc.symm.trans hs
  exact (formatted_counted a).trans (formatted_descend hm ha)

theorem formatted_of_exec {tagged : Bool} {s : String} (hw : w.Hookless)
    (h : w.exec (onFailure depth) held (.log l v tagged (.formatted s)) = some (u, r)) :
    u.formatted = w.formatted + if (w.logger l).enabled v then 1 else 0 := by
  rw [exec_formatted, exec_of_call rfl, Option.map_map] at h
  obtain ⟨x, hx, he⟩ := Option.map_eq_some_iff.mp h
  cases he
  exact congrArg (· + _) (formatted_of_hookless hw rfl hx)

/-- What is left of the bytes is offered to a sink again and again until all are taken. -/
inductive Drains (f : OnFailure) (held : List LoggerId) (s : Sink) : Bytes → State → State → Prop
  | done (w : State) : Drains f held s [] w w
  | call {b : Bytes} {n : Nat} {w u v : State} (hb : b ≠ []) (hn : n ≠ 0)
      (h : w.writeOnce f held s b = some (u, .count n)) (hr : Drains f held s (b.drop n) u v) :
      Drains f held s b w v

theorem write_iff_drains {o : Writer} :
    w.write f held (.writer o) b = some (u, .done) ↔ Drains f held (.writer o) b w u := by
  -- A writer takes all bytes at once, so there is one call or, for no bytes, none.
  have ho : ∀ x : State, w.submitTo f held o (.text (Text.Utf8.toString b)) = some x ↔
      w.writeOnce f held (.writer o) b = some (x, .count b.length) := by
    intro x
    rw [writeOnce, Option.map_eq_some_iff]
    simp
  by_cases hb : b = []
  · subst hb
    constructor
    · intro h
      cases h
      exact .done w
    · rintro (_ | ⟨hb, -, -, -⟩)
      · rfl
      · exact absurd rfl hb
  · have he : b.isEmpty = false := by simpa using hb
    rw [write, he]
    constructor
    · intro h
      obtain ⟨x, hx, hu⟩ := Option.map_eq_some_iff.mp h
      cases hu
      refine .call hb (by simpa using hb) ((ho u).mp hx) ?_
      rw [List.drop_length]
      exact .done u
    · rintro (_ | ⟨-, -, h, hr⟩)
      · exact absurd rfl hb
      · obtain ⟨x, hx, hn⟩ := Option.map_eq_some_iff.mp h
        cases hn
        rw [List.drop_length] at hr
        cases hr with
        | done => exact congrArg (Option.map _) hx
        | call hb' => exact absurd rfl hb'

/-- However a text comes to a logger, the same happens: finished or formatted, through a writer as
text or as bytes, in one call or many, with its label or the abbreviation written out. -/
theorem message_paths_agree (w : State) (depth : Nat) (held : List LoggerId) (l : LoggerId)
    (v : Severity) (t : String) :
    let f := onFailure depth
    let out : Writer := ⟨l, v⟩
    let k := if (w.logger l).enabled v then 1 else 0
    let plain := w.exec f held (.log l v false (.text t))
    let tagged := w.exec f held (.log l v true (.text t))
    (w.exec f held (.log l v false (.formatted t)) = plain.map (fun p => (p.1.formats k, p.2)) ∧
      w.exec f held (out.writeText t) = plain ∧
      w.exec f held (out.writeFormatted t) = plain.map (fun p => (p.1.formats k, p.2)) ∧
      w.exec f held (out.write (ofString t)) =
        plain.map (fun p => (p.1, .count (ofString t).length)) ∧
      (t ≠ "" → w.exec f held (out.writeAll (ofString t)) = plain) ∧
      (t = "" → w.exec f held (out.writeAll (ofString t)) = some (w, .done))) ∧
    (w.exec f held (.log l v true (.formatted t)) = tagged.map (fun p => (p.1.formats k, p.2)) ∧
      w.exec f held (.ofSeverity v l t) = tagged.map (fun p => (p.1.formats k, p.2)) ∧
      w.exec f held (.log l v false (.text (v.abbreviation ++ " " ++ t))) = tagged) ∧
    (∀ b u r, w.exec f held (out.write b) = some (u, r) → r = .count b.length) ∧
    (∀ b u, w.exec f held (out.writeAll b) = some (u, .done) ↔ Drains f held (.writer out) b w u) ∧
    (w.Hookless → ∀ label u r, w.exec f held (.log l v label (.formatted t)) = some (u, r) →
      u.formatted = w.formatted + k) ∧
    ∀ vs o, w.Chained l vs o → (loggersOf l vs).Nodup →
      (∀ m ∈ loggersOf l vs, m < w.loggers.size ∧ m ∉ held ∧ w.HookReturns depth m) →
        ∃ u, plain = some (u, .done) ∧
          w.exec f held (out.write (ofString t)) = some (u, .count (ofString t).length) := by
  intro f out k plain tagged
  have hf : ∀ label, w.exec f held (.log l v label (.formatted t)) =
      (w.exec f held (.log l v label (.text t))).map (fun p => (p.1.formats k, p.2)) :=
    fun label => exec_formatted w depth held l v label t
  have hb : w.exec f held (out.write (ofString t)) =
      plain.map (fun p => (p.1, .count (ofString t).length)) :=
    exec_writeOnce_ofString f held out t w
  refine ⟨⟨hf false, rfl, hf false, hb, fun ht => ?_, fun ht => ?_⟩,
    ⟨hf true, ?_, exec_tagged w f held l v t⟩, fun b u r h => ?_, fun b u => write_iff_drains,
    fun hw label u r h => formatted_of_exec hw h, fun vs o hc hn hs => ?_⟩
  · exact exec_write_ofString f held out ht w
  · subst ht
    rfl
  · rw [Command.ofSeverity_eq]
    exact hf true
  · obtain ⟨x, -, hx⟩ := Option.map_eq_some_iff.mp h
    cases hx
    rfl
  · obtain ⟨u, hu⟩ := exec_of_chained (c := .log l v false (.text t)) rfl hc hn hs
    exact ⟨u, hu, hb.trans (congrArg (Option.map _) hu)⟩

theorem choked_loses_bytes_as_text :
    (∃ u, choked.perform (.log 0 .warn false (.text "é")) = some (u, .done) ∧
      choked.perform ((⟨0, .warn⟩ : Writer).write (ofString "é")) = some (u, .count 2) ∧
      choked.perform ((⟨0, .warn⟩ : Writer).writeAll (ofString "é")) = some (u, .done)) ∧
    choked.perform ((⟨0, .warn⟩ : Writer).writeAll (ofString "")) = some (choked, .done) ∧
    ∃ u, relay.perform (.log 1 .info false (.formatted "up")) = some (u, .done) ∧
      u.formatted = 1 := by
  obtain ⟨⟨-, -, -, -, ha, -⟩, -, -, -, -, hx⟩ := message_paths_agree choked 1 [] 0 .warn "é"
  obtain ⟨⟨-, -, -, -, -, hn⟩, -⟩ := message_paths_agree choked 1 [] 0 .warn ""
  obtain ⟨⟨hf, -⟩, -, -, -, hk, hr⟩ := message_paths_agree relay 1 [] 1 .info "up"
  have hw : relay.Hookless := .inr fun k => by rcases k with _ | _ | k <;> rfl
  refine ⟨?_, hn rfl, ?_⟩
  · obtain ⟨u, hu, hb⟩ := hx [] (.device 0) rfl (by decide) fun m hm => by
      obtain rfl := List.mem_singleton.mp hm
      refine ⟨by decide, by simp, fun held e u hh hi hk => ?_⟩
      rw [onFailure_of_hook (hi.trans rfl) (hk.trans rfl), hh]
      rfl
    exact ⟨u, hu, hb, (ha (by decide)).trans hu⟩
  · obtain ⟨u, hu, -⟩ := hr [⟨0, .info⟩] (.buffer 0) ⟨rfl, rfl⟩ (by decide) fun m hm => by
      refine ⟨?_, by simp, fun held e u hh hi hk => ?_⟩
      · revert m
        decide
      · rw [onFailure_of_no_hook (hk.trans (hw.resolve_left nofun m))]
        rfl
    have hu := hf.trans (congrArg (Option.map _) hu)
    exact ⟨_, hu, hk hw _ _ _ hu⟩

end State

end LineLogger
