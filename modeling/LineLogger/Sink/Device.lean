import LineLogger.IoError
import LineLogger.Text.Utf8

namespace LineLogger

inductive WriteOutcome
  | takes (limit : Nat)
  | takesAll
  | fails (error : IoError)

namespace WriteOutcome

def answer : WriteOutcome → Nat → Except IoError Nat
  | .takes limit, n => .ok (min limit n)
  | .takesAll, n => .ok n
  | .fails e, _ => .error e

end WriteOutcome

namespace Device

inductive Call
  | write (offered : Bytes) (answer : Except IoError Nat)
  | flush (failure : Option IoError)

def Call.taken : Call → Bytes
  | .write b (.ok n) => b.take n
  | .write _ (.error _) => []
  | .flush _ => []

def Call.isWrite : Call → Bool
  | .write .. => true
  | .flush _ => false

end Device

/-- A sink whose calls come out as planned. When a plan is used up, a write takes everything and a
flush succeeds. -/
structure Device where
  writes : List WriteOutcome := []
  flushes : List (Option IoError) := []
  calls : List Device.Call := []

namespace Device

def data (d : Device) : Bytes := d.calls.flatMap Call.taken

def answerTo (d : Device) (b : Bytes) : Except IoError Nat :=
  (d.writes.headD .takesAll).answer b.length

def afterWrite (d : Device) (b : Bytes) : Device :=
  { d with writes := d.writes.tail, calls := d.calls ++ [.write b (d.answerTo b)] }

def flushFailure (d : Device) : Option IoError := d.flushes.headD none

def afterFlush (d : Device) : Device :=
  { d with flushes := d.flushes.tail, calls := d.calls ++ [.flush d.flushFailure] }

theorem data_afterWrite (d : Device) (b : Bytes) :
    (d.afterWrite b).data = d.data ++ (Call.write b (d.answerTo b)).taken := by
  simp [data, afterWrite]

theorem drop_shorter {d : Device} {b : Bytes} {n : Nat} (hn : n ≠ 0) (hb : b ≠ []) :
    (d.afterWrite b).writes.length + (b.drop n).length < d.writes.length + b.length := by
  have := List.length_pos_iff.mpr hb
  simp only [afterWrite, List.length_tail, List.length_drop]
  omega

theorem interrupted_shorter {d : Device} {b : Bytes} {e : IoError}
    (h : d.answerTo b = .error e) : (d.afterWrite b).writes.length < d.writes.length := by
  cases hw : d.writes with
  | nil => simp [answerTo, hw, WriteOutcome.answer] at h
  | cons o os => simp [afterWrite, hw]

/-- Offers what is left of the bytes until all are taken. An interrupted call is made again; any
other failure ends the delivery, and so does a call that takes nothing. -/
def writeAll (d : Device) (b : Bytes) : Device × Option IoError :=
  if hb : b = [] then (d, none)
  else
    match h : d.answerTo b with
    | .error e =>
      if e.isInterrupted then
        have := interrupted_shorter h
        (d.afterWrite b).writeAll b
      else (d.afterWrite b, some e)
    | .ok n =>
      if hn : n = 0 then (d.afterWrite b, some IoError.nothingTaken)
      else
        have := drop_shorter (d := d) hn hb
        (d.afterWrite b).writeAll (b.drop n)
termination_by d.writes.length + b.length
decreasing_by
  · exact Nat.add_lt_add_right this _
  · exact this

@[simp]
theorem writeAll_nil (d : Device) : d.writeAll [] = (d, none) := by
  rw [writeAll, dif_pos rfl]

end Device

end LineLogger
