import LineLogger.Text.UpperCase.Table

namespace LineLogger.Text

namespace UpperCase

def Run.contains (r : Run) (n : Nat) : Bool :=
  r.first ≤ n && n ≤ r.last && (n - r.first) % r.stride == 0

def ofExpansion? (n : Nat) : Option (List Nat) := (expansions.find? (fun e => e.1 == n)).map (·.2)

def ofRun? (n : Nat) : Option Nat :=
  (runs.find? (·.contains n)).map (fun r => ((n : Int) + r.shift).toNat)

end UpperCase

def upperChar (c : Char) : List Char :=
  if c.toNat < 128 then [c.toUpper]
  else
    match UpperCase.ofExpansion? c.toNat, UpperCase.ofRun? c.toNat with
    | some ns, _ => ns.map Char.ofNat
    | none, some n => [Char.ofNat n]
    | none, none => [c]

def upper (cs : List Char) : List Char := cs.flatMap upperChar

end LineLogger.Text
