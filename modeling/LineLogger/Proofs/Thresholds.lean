import LineLogger.Proofs.Sending

namespace LineLogger

namespace Severity

end Severity

namespace Command

variable {c : Command} {q : Call} {t t' : Int32}

end Command

namespace State

def atVerbosity (w : State) (l : LoggerId) (v : Verbosity) : State :=
  w.modifyLogger l (·.set (.verbosity (some v)))

variable {w u : State} {c : Command} {q : Call} {l : LoggerId} {cs : List Command}
  {ls : List (Command × Bytes)} {now : Time.Instant} {v v' : Verbosity}

theorem sameWiring_atVerbosity (w : State) (l : LoggerId) (v : Verbosity) :
    SameWiring w (w.atVerbosity l v) where
  sink k := by
    rw [atVerbosity, logger_modifyLogger]
    split <;> rfl
  hook k := by
    rw [atVerbosity, logger_modifyLogger]
    split <;> rfl
  hooks := rfl
  size := rfl

theorem logger_atVerbosity (w : State) (l : LoggerId) (v : Verbosity) :
    (w.atVerbosity l v).logger l = { w.logger l with threshold := v.threshold } := by
  rw [atVerbosity, logger_modifyLogger, if_pos rfl]
  rfl

theorem TakesLines.atVerbosity (hw : w.TakesLines l) (v : Verbosity) :
    (w.atVerbosity l v).TakesLines l :=
  hw.of_sameWiring (sameWiring_atVerbosity w l v) fun _ _ => ⟨[], rfl⟩

theorem ReadsFixed.atVerbosity (hr : w.ReadsFixed l now) (v : Verbosity) :
    (w.atVerbosity l v).ReadsFixed l now := by
  intro n
  rw [logger_atVerbosity]
  exact hr n

theorem toNat_of_add_eq {a b : UInt64} {m n : Nat} (hm : m ≤ n) (hn : n < 2 ^ 64)
    (ha : a = .ofNat m) (hs : a + b = .ofNat n) : b.toNat = n - m := by
  have hb : b = .ofNat (n - m) := by
    rw [ha, ← Nat.add_sub_cancel' hm, UInt64.ofNat_add] at hs
    simpa using hs
  rw [hb, UInt64.toNat_ofNat_of_lt']
  exact Nat.lt_of_le_of_lt (Nat.sub_le n m) hn

theorem Yields.filtered (h : Yields l w cs u ls) (hz : ∀ d, w.tally l d = 0)
    (hle : ls.length ≤ cs.length) (hn : cs.length < 2 ^ 64) :
    (u.tally l .filtered).toNat = cs.length - ls.length := by
  have hw := h.written
  have hs := h.calls
  rw [hz, UInt64.zero_add] at hw
  rw [hz, hz, UInt64.zero_add, UInt64.zero_add] at hs
  exact toNat_of_add_eq hle hn hw hs

end State

end LineLogger
