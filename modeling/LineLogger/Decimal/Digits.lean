namespace LineLogger.Decimal

/-- The character of a digit, and what follows the digits in code order from ten on. -/
def digitChar (n : Nat) : Char := Char.ofNat (48 + n)

def digitValue (c : Char) : Nat := c.toNat - 48

def digits (n : Nat) : List Char :=
  if n < 10 then [digitChar n] else digits (n / 10) ++ [digitChar (n % 10)]

def value (cs : List Char) : Nat := cs.foldl (fun v c => 10 * v + digitValue c) 0

theorem digitValue_digitChar {n : Nat} (h : n < 10) : digitValue (digitChar n) = n :=
  (by decide : ∀ n, n < 10 → digitValue (digitChar n) = n) n h

theorem digits_of_lt {n : Nat} (h : n < 10) : digits n = [digitChar n] := by
  rw [digits, if_pos h]

theorem digits_of_le {n : Nat} (h : 10 ≤ n) :
    digits n = digits (n / 10) ++ [digitChar (n % 10)] := by
  rw [digits, if_neg (by omega)]

theorem value_append (cs : List Char) (c : Char) :
    value (cs ++ [c]) = 10 * value cs + digitValue c := by
  simp [value]

theorem value_digits (n : Nat) : value (digits n) = n := by
  induction n using Nat.strongRecOn with
  | ind n ih =>
    by_cases h : n < 10
    · rw [digits_of_lt h]
      simp [value, digitValue_digitChar h]
    · rw [digits_of_le (by omega), value_append, ih (n / 10) (by omega),
        digitValue_digitChar (by omega)]
      omega

def ofInt (n : Int) : List Char := if n < 0 then '-' :: digits n.natAbs else digits n.natAbs

end LineLogger.Decimal
