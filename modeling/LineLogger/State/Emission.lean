import LineLogger.State

namespace LineLogger

/-- How a thread goes on when a line was lost: the loggers whose sinks it has locked, the logger
that lost the line, and why. -/
abbrev OnFailure := List LoggerId → LoggerId → IoError → State → Option State

namespace State

def tag : Option Severity → String → String
  | none, s => s
  | some v, s => v.abbreviation ++ " " ++ s

/-- One logging call. A thread that meets a lock of its own waits forever, and then there is no
state afterwards. `free` bounds the number of locks that can still be taken. -/
def submit (onFailure : OnFailure) (free : Nat) (held : List LoggerId) (l : LoggerId)
    (level : Int32) (label : Option Severity) (m : Message) (w : State) : Option State :=
  let w := w.note (.reached l)
  if (w.logger l).admits level then
    let (w, text) := w.textOf m
    if l ∈ held then none
    else
      match free with
      | 0 => none
      | free + 1 =>
        let (w, now) := w.readClock l
        let line := (w.logger l).line now (tag label text)
        match (w.logger l).sink with
        | .writer v =>
          let inner := Message.text (Text.Utf8.toString line)
          match
            submit onFailure free (l :: held) v.logger v.severity.effectiveLevel none inner w with
          | none => none
          | some w => some (w.count l .written)
        | .outlet o =>
          match w.deliver o line with
          | (w, none) => some (w.count l .written)
          | (w, some e) => onFailure held l e ((w.note (.lost l e)).count l .writeFailure)
  else some (w.count l .filtered)

def flush (free : Nat) (held : List LoggerId) (l : LoggerId) (w : State) :
    Option (State × Option IoError) :=
  if l ∈ held then none
  else
    match free with
    | 0 => none
    | free + 1 =>
      match (w.logger l).sink with
      | .writer v =>
        match flush free (l :: held) v.logger w with
        | none => none
        | some (w, _) => some (w.note (.flushed l none), none)
      | .outlet o =>
        match w.flushOutlet o with
        | (w, none) => some (w.note (.flushed l none), none)
        | (w, some e) => some ((w.note (.flushed l (some e))).count l .flushFailure, some e)

end State

end LineLogger
