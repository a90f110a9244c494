import LineLogger.Proofs.Outcome

namespace LineLogger

def Event.isHookMark : Event → Bool
  | .hookBegan .. => true
  | .hookEnded _ => true
  | .reached _ => false
  | .lost .. => false
  | .flushed .. => false

def hookMarks (es : List Event) : List Event := es.filter (·.isHookMark)

def hookCall (l : LoggerId) (h : HookId) (e : IoError) : List Event :=
  [.hookBegan l h e, .hookEnded l]

theorem hookMarks_append (es fs : List Event) :
    hookMarks (es ++ fs) = hookMarks es ++ hookMarks fs := List.filter_append ..

theorem hookMarks_reached (ls : List LoggerId) : hookMarks (ls.map .reached) = [] := by
  induction ls with
  | nil => rfl
  | cons l ls ih => exact ih

namespace State

def enterHook (w : State) (l : LoggerId) (h : HookId) (e : IoError) : State :=
  { w with inHook := true }.note (.hookBegan l h e)

def leaveHook (w : State) (l : LoggerId) : State := { w.note (.hookEnded l) with inHook := false }

/-- No hook has begun or ended on the way from one state to the other. -/
structure Unhooked (w u : State) : Prop where
  inHook : u.inHook = w.inHook
  journal : ∃ es, u.journal = w.journal ++ es ∧ hookMarks es = []

theorem Unhooked.refl (w : State) : Unhooked w w := ⟨rfl, [], by simp, rfl⟩

theorem Unhooked.of_eq {w u : State} (h : u.inHook = w.inHook) (hj : u.journal = w.journal) :
    Unhooked w u := ⟨h, [], by simp [hj], rfl⟩

theorem Unhooked.trans {w u v : State} (h : Unhooked w u) (h' : Unhooked u v) : Unhooked w v := by
  obtain ⟨es, he, hm⟩ := h.journal
  obtain ⟨fs, hf, hm'⟩ := h'.journal
  refine ⟨h'.inHook.trans h.inHook, es ++ fs, ?_, ?_⟩
  · rw [hf, he, List.append_assoc]
  · rw [hookMarks_append, hm, hm']
    rfl

theorem unhooked_note (w : State) {e : Event} (h : e.isHookMark = false) : Unhooked w (w.note e) :=
  ⟨rfl, [e], rfl, by simp [hookMarks, h]⟩

theorem unhooked_countAll (w : State) (ls : List LoggerId) (c : Counter) :
    Unhooked w (w.countAll ls c) :=
  .of_eq (countAll_frame (fun _ _ => rfl) w ls) (countAll_frame (fun _ _ => rfl) w ls)

theorem unhooked_of_no_call {c : Command} {f : OnFailure} {held : List LoggerId} {w u : State}
    {r : Reply} (hc : c.call? = none) (h : w.exec f held c = some (u, r)) : Unhooked w u :=
  rel_of_no_call .refl .trans (fun w _ _ => unhooked_note w rfl) (fun _ _ _ => .of_eq rfl rfl)
    (fun _ _ => .of_eq rfl rfl) hc h

theorem onFailure_of_inHook {w : State} (h : w.inHook = true) (depth : Nat)
    (held : List LoggerId) (l : LoggerId) (e : IoError) :
    onFailure depth held l e w = some w := by
  cases depth <;> simp [onFailure, h]

theorem onFailure_of_no_hook {w : State} {l : LoggerId} (h : (w.logger l).hook = none) (depth : Nat)
    (held : List LoggerId) (e : IoError) : onFailure depth held l e w = some w := by
  cases depth <;> simp [onFailure, h]

theorem onFailure_of_hook {w : State} {l : LoggerId} {h : HookId} (hw : w.inHook = false)
    (hh : (w.logger l).hook = some h) (depth : Nat) (held : List LoggerId) (e : IoError) :
    onFailure (depth + 1) held l e w =
      (execAll (onFailure depth) held ((w.hooks.get h).body e) (w.enterHook l h e)).map
        (·.leaveHook l) := by
  rw [onFailure]
  simp only [hw, hh, Bool.false_eq_true, if_false, hooks_note]
  have he : ({ w with inHook := true } : State).note (.hookBegan l h e) = w.enterHook l h e := rfl
  rw [he]
  cases execAll (onFailure depth) held ((w.hooks.get h).body e) (w.enterHook l h e) <;> rfl

end State

namespace Landing

theorem hookMarks_losses (a : Landing) : hookMarks a.losses = [] := by
  rw [losses]
  cases a.fate <;> rfl

theorem unhooked_ended {w : State} {a : Landing} (h : State.Descends w a) :
    State.Unhooked w a.ended := by
  have he := leaves_ended h
  refine ⟨he.inHook, _, he.journal, ?_⟩
  rw [hookMarks_append, hookMarks_reached, hookMarks_losses]
  rfl

theorem unhooked_counted {w : State} {a : Landing} (h : State.Descends w a) :
    State.Unhooked w a.counted := (unhooked_ended h).trans (State.unhooked_countAll _ _ _)

theorem settle_of_inHook {a : Landing} (h : a.state.inHook = true) (depth : Nat)
    (held : List LoggerId) : a.settle (State.onFailure depth) held = some a.counted := by
  rw [settle]
  cases a.fate with
  | filtered => rfl
  | written => rfl
  | lost e =>
    dsimp only
    rw [State.onFailure_of_inHook (a.inHook_ended.trans h)]
    rfl

theorem settle_of_no_hook {a : Landing} (h : ∀ e, a.fate = .lost e →
    (a.state.logger a.logger).hook = none) (depth : Nat) (held : List LoggerId) :
    a.settle (State.onFailure depth) held = some a.counted := by
  rw [settle]
  cases hf : a.fate with
  | filtered => rfl
  | written => rfl
  | lost e =>
    dsimp only
    rw [State.onFailure_of_no_hook (a.hook_ended.trans (h e hf))]
    rfl

theorem settle_of_hook {a : Landing} {e : IoError} {h : HookId} (hw : a.state.inHook = false)
    (hf : a.fate = .lost e) (hh : (a.state.logger a.logger).hook = some h) (depth : Nat)
    (held : List LoggerId) :
    a.settle (State.onFailure (depth + 1)) held =
      (State.execAll (State.onFailure depth) (a.passed ++ held) ((a.ended.hooks.get h).body e)
        (a.ended.enterHook a.logger h e)).map
        (fun u => (u.leaveHook a.logger).countAll a.passed .written) := by
  rw [settle, hf]
  dsimp only
  rw [State.onFailure_of_hook (a.inHook_ended.trans hw) (a.hook_ended.trans hh), Option.map_map]
  rfl

theorem hook_cases (a : Landing) :
    (∀ e, a.fate = .lost e → (a.state.logger a.logger).hook = none) ∨
      ∃ e h, a.fate = .lost e ∧ (a.state.logger a.logger).hook = some h := by
  cases hf : a.fate with
  | filtered => exact .inl fun e he => Fate.noConfusion he
  | written => exact .inl fun e he => Fate.noConfusion he
  | lost e =>
    cases hh : (a.state.logger a.logger).hook with
    | none => exact .inl fun _ _ => rfl
    | some h => exact .inr ⟨e, h, rfl, rfl⟩

/-- What comes of a line outside of hooks: it is counted, and the hook of a logger that lost it
runs. -/
theorem settle_cases {a : Landing} {depth : Nat} {held : List LoggerId} {u : State}
    (hw : a.state.inHook = false) (h : a.settle (State.onFailure (depth + 1)) held = some u) :
    ((∀ e, a.fate = .lost e → (a.state.logger a.logger).hook = none) ∧ u = a.counted) ∨
      ∃ e h finish, a.fate = .lost e ∧ (a.state.logger a.logger).hook = some h ∧
        State.execAll (State.onFailure depth) (a.passed ++ held) ((a.ended.hooks.get h).body e)
          (a.ended.enterHook a.logger h e) = some finish ∧
        u = (finish.leaveHook a.logger).countAll a.passed .written := by
  rcases a.hook_cases with hn | ⟨e, k, hf, hk⟩
  · rw [settle_of_no_hook hn] at h
    exact .inl ⟨hn, (Option.some.inj h).symm⟩
  · rw [settle_of_hook hw hf hk] at h
    obtain ⟨finish, hr, he⟩ := Option.map_eq_some_iff.mp h
    exact .inr ⟨e, k, finish, hf, hk, hr, he.symm⟩

end Landing

namespace State

/-- Inside a hook no other hook begins, so a failure that happens there is only counted. -/
theorem unhooked_of_inHook {c : Command} {depth : Nat} {held : List LoggerId} {w u : State}
    {r : Reply} (hw : w.inHook = true) (h : w.exec (onFailure depth) held c = some (u, r)) :
    Unhooked w u := by
  cases hc : c.call? with
  | none => exact unhooked_of_no_call hc h
  | some q =>
    obtain ⟨a, ha, hs⟩ := descend_of_exec hc h
    have hd := descends_of_descend ha
    rw [Landing.settle_of_inHook (hd.inHook.trans hw)] at hs
    cases hs
    exact Landing.unhooked_counted hd

theorem execAll_unhooked {cs : List Command} {depth : Nat} {held : List LoggerId} {w u : State}
    (hw : w.inHook = true) (h : w.execAll (onFailure depth) held cs = some u) : Unhooked w u := by
  induction cs generalizing w with
  | nil =>
    cases h
    exact .refl u
  | cons c cs ih =>
    rw [execAll] at h
    split at h
    · cases h
    · next v r hv =>
      have hu := unhooked_of_inHook hw hv
      exact hu.trans (ih (hu.inHook.trans hw) h)

theorem journal_of_hook {cs : List Command} {depth : Nat} {held : List LoggerId} {w u : State}
    {l : LoggerId} {h : HookId} {e : IoError}
    (hu : (w.enterHook l h e).execAll (onFailure depth) held cs = some u) :
    ∃ es, (u.leaveHook l).journal = w.journal ++ es ∧ hookMarks es = hookCall l h e := by
  obtain ⟨es, hj, hm⟩ := (execAll_unhooked rfl hu).journal
  refine ⟨[.hookBegan l h e] ++ es ++ [.hookEnded l], ?_, ?_⟩
  · change u.journal ++ _ = _
    rw [hj]
    simp [enterHook]
  · rw [hookMarks_append, hookMarks_append, hm]
    rfl

theorem journal_of_onFailure {depth : Nat} {held : List LoggerId} {w u : State} {l : LoggerId}
    {e : IoError} (hu : onFailure depth held l e w = some u) :
    ∃ es, u.journal = w.journal ++ es ∧ (hookMarks es = [] ∨
      ∃ h, (w.logger l).hook = some h ∧ hookMarks es = hookCall l h e) := by
  cases hw : w.inHook with
  | true =>
    rw [onFailure_of_inHook hw] at hu
    cases hu
    exact ⟨[], by simp, .inl rfl⟩
  | false =>
    cases hh : (w.logger l).hook with
    | none =>
      rw [onFailure_of_no_hook hh] at hu
      cases hu
      exact ⟨[], by simp, .inl rfl⟩
    | some h =>
      cases depth with
      | zero => simp [onFailure, hw, hh] at hu
      | succ depth =>
        rw [onFailure_of_hook hw hh] at hu
        obtain ⟨v, hv, rfl⟩ := Option.map_eq_some_iff.mp hu
        obtain ⟨es, hj, hm⟩ := journal_of_hook hv
        exact ⟨es, hj, .inr ⟨h, rfl, hm⟩⟩

theorem exec_of_inHook {w : State} (hw : w.inHook = true) (m n : Nat) (held : List LoggerId)
    (c : Command) : w.exec (onFailure m) held c = w.exec (onFailure n) held c := by
  cases hc : c.call? with
  | none => exact exec_of_no_call hc _ _ held w
  | some q =>
    rw [exec_of_call hc, exec_of_call hc, submitCall_eq_descend, submitCall_eq_descend]
    congr 1
    refine Option.bind_congr fun a ha => ?_
    have ha := (descends_of_descend ha).inHook.trans hw
    rw [Landing.settle_of_inHook ha, Landing.settle_of_inHook ha]

theorem execAll_of_inHook {w : State} (hw : w.inHook = true) (m n : Nat) (held : List LoggerId)
    (cs : List Command) : w.execAll (onFailure m) held cs = w.execAll (onFailure n) held cs := by
  induction cs generalizing w with
  | nil => rfl
  | cons c cs ih =>
    rw [execAll, execAll, exec_of_inHook hw m n]
    split
    · rfl
    · next hu => exact ih ((unhooked_of_inHook hw hu).inHook.trans hw)

theorem exec_of_not_inHook {w : State} (hw : w.inHook = false) (m n : Nat) (held : List LoggerId)
    (c : Command) : w.exec (onFailure (m + 1)) held c = w.exec (onFailure (n + 1)) held c := by
  cases hc : c.call? with
  | none => exact exec_of_no_call hc _ _ held w
  | some q =>
    rw [exec_of_call hc, exec_of_call hc, submitCall_eq_descend, submitCall_eq_descend]
    congr 1
    refine Option.bind_congr fun a ha => ?_
    have ha := (descends_of_descend ha).inHook.trans hw
    rcases a.hook_cases with hn | ⟨e, h, hf, hh⟩
    · rw [Landing.settle_of_no_hook hn, Landing.settle_of_no_hook hn]
    · rw [Landing.settle_of_hook ha hf hh, Landing.settle_of_hook ha hf hh]
      exact congrArg (Option.map _) (execAll_of_inHook rfl m n _ _)

theorem execAll_append (f : OnFailure) (held : List LoggerId) (cs ds : List Command) (w : State) :
    w.execAll f held (cs ++ ds) = (w.execAll f held cs).bind (·.execAll f held ds) := by
  induction cs generalizing w with
  | nil => rfl
  | cons c cs ih =>
    simp only [List.cons_append, execAll]
    split
    · rfl
    · exact ih _

end State

end LineLogger
