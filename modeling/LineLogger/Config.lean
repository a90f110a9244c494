import LineLogger.Error
import LineLogger.Time.Format.Json
import LineLogger.Verbosity.Json

namespace LineLogger

structure Config where
  verbosity : Verbosity := {}
  timeFormat : Time.Format := {}
  deriving DecidableEq, Repr

namespace Config

open Json

def fields : List (Member Config) :=
  [.of "verbosity" Verbosity.readJson (readRecord_shortens _ _ _)
      (fun v c => { c with verbosity := v }),
    .of "time_format" Time.Format.readJson Time.Format.readJson_shortens
      (fun f c => { c with timeFormat := f })]

def readJson (s : Bytes) : Read Config := readRecord "LoggerConfig" fields {} s

def ofJson (text : String) : Except Json.Error Config := document readJson text

def printJson (c : Config) : List Char :=
  printObject [("verbosity", c.verbosity.printJson), ("time_format", c.timeFormat.printJson)]

def toJson (c : Config) : String := String.ofList c.printJson

/-- A level below that of quiet means nothing. -/
def validate (c : Config) : Except Error Unit :=
  if c.verbosity.level < Verbosity.quietThreshold then
    .error (.invalidConfiguration "verbosity"
      s!"level {c.verbosity.level} is below {Verbosity.quietThreshold}")
  else .ok ()

def load (text : String) : Except Error Config :=
  match ofJson text with
  | .error e => .error (.json e)
  | .ok c => c.validate.map (fun _ => c)

end Config

end LineLogger
