import LineLogger.Metrics
import Mathlib

namespace LineLogger

namespace MetricsFamily

inductive Request
  | step (s : Step)
  | failureRate (index : Nat)
  | text (index : Nat)

namespace Request

def target? (f : MetricsFamily) : Request → Option Nat
  | .step (.record _ i) => some i
  | .step (.reset i) => some i
  | .step (.clone _) => some f.length
  | .step .fresh => some f.length
  | .failureRate _ => none
  | .text _ => none

/-- What a member starts from if a request makes it or resets it: a clone from what its source holds
at that moment, any other from zero. -/
def start? (f : MetricsFamily) (j : Nat) : Request → Option Metrics
  | .step (.record ..) => none
  | .step (.reset i) => if i = j ∧ j < f.length then some {} else none
  | .step (.clone i) => if f.length = j then some (f.member i) else none
  | .step .fresh => if f.length = j then some {} else none
  | .failureRate _ => none
  | .text _ => none

def resets (j : Nat) : Request → Bool
  | .step (.reset i) => i = j
  | _ => false

def records (c : Counter) (j : Nat) : Request → Bool
  | .step (.record d i) => d = c && i = j
  | _ => false

end Request

def after (f : MetricsFamily) : Request → MetricsFamily
  | .step s => f.step s
  | .failureRate _ => f
  | .text _ => f

def afterAll (f : MetricsFamily) (rs : List Request) : MetricsFamily := rs.foldl after f

/-- After the requests, `m` is what member `j` started from last, and `since` is what was asked of
the family after that. -/
inductive Started (f : MetricsFamily) (j : Nat) :
    List Request → Metrics → List Request → Prop
  | given (rs : List Request) (hj : j < f.length) (hr : ∀ r ∈ rs, r.resets j = false) :
      Started f j rs (f.member j) rs
  | anew (before : List Request) (r : Request) (since : List Request) (m : Metrics)
      (hs : r.start? (f.afterAll before) j = some m) (hr : ∀ r ∈ since, r.resets j = false) :
      Started f j (before ++ r :: since) m since

variable {f : MetricsFamily} {r : Request} {rs since : List Request} {i j : Nat} {c : Counter}
  {m : Metrics}

theorem member_of_lt (h : j < f.length) : f.member j = f[j] := List.getD_eq_getElem f {} h

theorem member_of_le (h : f.length ≤ j) : f.member j = {} := List.getD_eq_default f {} h

theorem member_modify (f : MetricsFamily) (g : Metrics → Metrics) (i j : Nat) :
    member (f.modify i g) j = if i = j ∧ j < f.length then g (f.member j) else f.member j := by
  by_cases hj : j < f.length
  · have hl : j < (f.modify i g).length := by rwa [List.length_modify]
    rw [member_of_lt hl, List.getElem_modify, member_of_lt hj]
    simp [hj]
  · have hj' := Nat.le_of_not_lt hj
    rw [member_of_le (by rwa [List.length_modify]), member_of_le hj', if_neg (fun h => hj h.2)]

theorem member_concat (f : MetricsFamily) (m : Metrics) (j : Nat) :
    member (f ++ [m]) j = if f.length = j then m else f.member j := by
  by_cases hj : f.length = j
  · subst hj
    simp [member]
  · rw [if_neg hj, member, member, List.getD_eq_getElem?_getD, List.getD_eq_getElem?_getD,
      List.getElem?_append]
    split
    · rfl
    · next h =>
      rw [List.getElem?_eq_none (by simp; omega), List.getElem?_eq_none (by omega)]

theorem length_after (f : MetricsFamily) (r : Request) : f.length ≤ (f.after r).length := by
  rcases r with s | i | i
  · cases s <;> simp [after, step]
  · exact Nat.le_refl _
  · exact Nat.le_refl _

theorem member_after_of_ne (h : r.target? f ≠ some j) : (f.after r).member j = f.member j := by
  rcases r with s | i | i
  · have hj : ∀ k, (Request.step s).target? f = some k → k ≠ j := fun k hk he => h (he ▸ hk)
    cases s with
    | record c i => exact (member_modify f _ i j).trans (if_neg fun he => hj i rfl he.1)
    | reset i => exact (member_modify f _ i j).trans (if_neg fun he => hj i rfl he.1)
    | clone i => exact (member_concat f _ j).trans (if_neg (hj _ rfl))
    | fresh => exact (member_concat f _ j).trans (if_neg (hj _ rfl))
  · rfl
  · rfl

theorem count_after (hj : j < f.length) (hr : r.resets j = false) (c : Counter) :
    ((f.after r).member j).count c = (f.member j).count c + if r.records c j then 1 else 0 := by
  by_cases ht : r.target? f = some j
  · rcases r with s | i | i
    · cases s with
      | record d i =>
        cases ht
        change (member (f.modify j (·.record d)) j).count c = _
        rw [member_modify, if_pos ⟨rfl, hj⟩, Metrics.count_record]
        by_cases hd : d = c <;> simp [Request.records, hd]
      | reset i => simp_all [Request.target?, Request.resets]
      | clone i => simp_all [Request.target?]
      | fresh => simp_all [Request.target?]
    · cases ht
    · cases ht
  · have hn : r.records c j = false := by
      rcases r with s | i | i
      · cases s <;> simp_all [Request.target?, Request.records]
      · rfl
      · rfl
    rw [member_after_of_ne ht, hn]
    exact (UInt64.add_zero _).symm

theorem count_afterAll (hj : j < f.length) (hr : ∀ r ∈ rs, r.resets j = false) (c : Counter) :
    ((f.afterAll rs).member j).count c =
      (f.member j).count c + .ofNat (rs.countP (·.records c j)) := by
  induction rs generalizing f with
  | nil => exact (UInt64.add_zero _).symm
  | cons r rs ih =>
    obtain ⟨hr, hrs⟩ := List.forall_mem_cons.mp hr
    have hi := ih (Nat.lt_of_lt_of_le hj (f.length_after r)) hrs
    rw [afterAll, List.foldl_cons, List.countP_cons, UInt64.ofNat_add]
    rw [afterAll, count_after hj hr] at hi
    rw [hi, UInt64.add_assoc, UInt64.add_comm (.ofNat _)]
    split <;> rfl

theorem member_of_start (h : r.start? f j = some m) :
    j < (f.after r).length ∧ (f.after r).member j = m := by
  rcases r with s | i | i
  · cases s with
    | record c i => cases h
    | reset i =>
      obtain ⟨⟨rfl, hj⟩, he⟩ := Option.ite_none_right_eq_some.mp h
      cases he
      exact ⟨by simpa [after, step] using hj, (member_modify f _ i i).trans (if_pos ⟨rfl, hj⟩)⟩
    | clone i =>
      obtain ⟨rfl, he⟩ := Option.ite_none_right_eq_some.mp h
      cases he
      exact ⟨by simp [after, step], (member_concat f _ _).trans (if_pos rfl)⟩
    | fresh =>
      obtain ⟨rfl, he⟩ := Option.ite_none_right_eq_some.mp h
      cases he
      exact ⟨by simp [after, step], (member_concat f _ _).trans (if_pos rfl)⟩
  · cases h
  · cases h

theorem Started.count (h : Started f j rs m since) (c : Counter) :
    ((f.afterAll rs).member j).count c = m.count c + .ofNat (since.countP (·.records c j)) := by
  cases h with
  | given rs hj hr => exact count_afterAll hj hr c
  | anew before r since m hs hr =>
    obtain ⟨hj, hm⟩ := member_of_start hs
    rw [afterAll, List.foldl_append, List.foldl_cons, ← hm]
    exact count_afterAll hj hr c

theorem start_or_kept (h : j < (f.after r).length) :
    (∃ m, r.start? f j = some m) ∨ j < f.length ∧ r.resets j = false := by
  rcases r with s | i | i
  · cases s with
    | record c i => exact .inr ⟨by simpa [after, step] using h, rfl⟩
    | reset i =>
      have hj : j < f.length := by simpa [after, step] using h
      by_cases hi : i = j
      · exact .inl ⟨{}, if_pos ⟨hi, hj⟩⟩
      · exact .inr ⟨hj, by simp [Request.resets, hi]⟩
    | clone i =>
      have hj : j < f.length + 1 := by simpa [after, step] using h
      by_cases hl : f.length = j
      · exact .inl ⟨f.member i, if_pos hl⟩
      · exact .inr ⟨by omega, rfl⟩
    | fresh =>
      have hj : j < f.length + 1 := by simpa [after, step] using h
      by_cases hl : f.length = j
      · exact .inl ⟨{}, if_pos hl⟩
      · exact .inr ⟨by omega, rfl⟩
  · exact .inr ⟨h, rfl⟩
  · exact .inr ⟨h, rfl⟩

theorem Started.concat (h : Started f j rs m since) (hr : r.resets j = false) :
    Started f j (rs ++ [r]) m (since ++ [r]) := by
  have hc : ∀ {ss : List Request}, (∀ s ∈ ss, s.resets j = false) →
      ∀ s ∈ ss ++ [r], s.resets j = false := fun hs =>
    List.forall_mem_append.mpr ⟨hs, List.forall_mem_singleton.mpr hr⟩
  cases h with
  | given rs hj hs => exact .given _ hj (hc hs)
  | anew before s since m hm hs =>
    rw [List.append_assoc, List.cons_append]
    exact .anew before s _ m hm (hc hs)

theorem exists_started (h : j < (f.afterAll rs).length) : ∃ m since, Started f j rs m since := by
  induction rs using List.reverseRecOn with
  | nil => exact ⟨_, _, .given [] h (by simp)⟩
  | append_singleton rs r ih =>
    rw [afterAll, List.foldl_append] at h
    rcases start_or_kept h with ⟨m, hm⟩ | ⟨hj, hr⟩
    · exact ⟨m, [], .anew rs r [] m hm (by simp)⟩
    · obtain ⟨m, since, hs⟩ := ih hj
      exact ⟨m, since ++ [r], hs.concat hr⟩

/-- Every counter of every member reads, modulo 2^64, what it read where the member started last
plus the records of this counter on this member since then. -/
theorem snapshots_are_independent (f : MetricsFamily) (rs : List Request) :
    let g := f.afterAll rs
    (∀ j < g.length, ∃ m since, Started f j rs m since) ∧
      (∀ j m since, Started f j rs m since → ∀ c, ∃ n,
        (g.member j).count c = n ∧ g.answer (.record c j) = some n ∧
          n.toNat = ((m.count c).toNat + since.countP (·.records c j)) % 2 ^ 64) ∧
      ∀ (r : Request) (j : Nat), r.target? g ≠ some j → (g.after r).member j = g.member j := by
  intro g
  refine ⟨fun j hj => exists_started hj, fun j m since h c => ?_,
    fun r j h => member_after_of_ne h⟩
  have hc : (g.member j).count c = m.count c + .ofNat (since.countP (·.records c j)) := h.count c
  refine ⟨_, rfl, rfl, ?_⟩
  rw [hc, UInt64.toNat_add, UInt64.toNat_ofNat', Nat.add_mod_mod]

def copied : List Request :=
  [.step (.record .written 0), .step (.clone 0), .step (.record .filtered 0),
    .step (.record .filtered 1), .failureRate 0, .step (.clone 1), .step (.reset 1),
    .step (.record .filtered 2), .step (.record .filtered 1), .step .fresh]

theorem copied_stand_alone :
    let g := afterAll [{ linesWritten := 18446744073709551615 }] copied
    (g.member 0).count .written = 0 ∧ (g.member 2).count .filtered = 2 ∧
      g.answer (.record .filtered 1) = some 1 ∧
        (g.after (.step (.record .written 3))).member 2 = g.member 2 := by
  intro g
  obtain ⟨-, hc, hn⟩ := snapshots_are_independent [{ linesWritten := 18446744073709551615 }] copied
  have h₀ : Started [{ linesWritten := 18446744073709551615 }] 0 copied _ copied :=
    .given copied (by decide) (by decide)
  have h₁ : Started [{ linesWritten := 18446744073709551615 }] 1 copied {} (copied.drop 7) :=
    .anew (copied.take 6) (.step (.reset 1)) _ _ rfl (by decide)
  have h₂ : Started [{ linesWritten := 18446744073709551615 }] 2 copied { linesFiltered := 1 }
      (copied.drop 6) := .anew (copied.take 5) (.step (.clone 1)) _ _ rfl (by decide)
  obtain ⟨n₀, hg₀, -, hn₀⟩ := hc 0 _ _ h₀ .written
  obtain ⟨n₁, -, ha₁, hn₁⟩ := hc 1 _ _ h₁ .filtered
  obtain ⟨n₂, hg₂, -, hn₂⟩ := hc 2 _ _ h₂ .filtered
  have e₀ : n₀ = 0 := UInt64.toNat_inj.mp hn₀
  have e₁ : n₁ = 1 := UInt64.toNat_inj.mp hn₁
  have e₂ : n₂ = 2 := UInt64.toNat_inj.mp hn₂
  exact ⟨e₀ ▸ hg₀, e₂ ▸ hg₂, e₁ ▸ ha₁, hn _ 2 (by decide)⟩

end MetricsFamily

end LineLogger
