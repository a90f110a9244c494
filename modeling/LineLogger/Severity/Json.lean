import LineLogger.Json.Printer
import LineLogger.Json.Record
import LineLogger.Severity

namespace LineLogger.Severity

open Json

def readName (s : Bytes) : Read Severity :=
  match readString s with
  | .error f => .error f
  | .ok (name, r) =>
    match ofName? name with
    | some v => .ok (v, r)
    | none => faultAt r (.unknownVariant name (all.map Severity.name))

def readClosingBrace (s : Bytes) : Except Fault Bytes :=
  match skipBlank s with
  | [] => faultAt [] .endInObject
  | b :: r => if b = closeBrace then .ok r else faultAt (b :: r) .expectedValue

/-- The form of an object with the name as its only key and null as the value. -/
def readTagged (s : Bytes) : Read Severity :=
  match skipBlank s with
  | [] => faultPast [] .endInObject
  | b :: r =>
    if b = closeBrace then faultPast (b :: r) .expectedValue
    else if b = quote then
      match readName r with
      | .error f => .error f
      | .ok (v, t) =>
        match readColon t with
        | .error f => .error f
        | .ok t =>
          match readNull t with
          | .error f => .error f
          | .ok t => (readClosingBrace t).map (v, ·)
    else faultPast (b :: r) .keyMustBeString

def readJson (s : Bytes) : Read Severity :=
  match skipBlank s with
  | [] => faultPast [] .endInValue
  | b :: r =>
    if b = openBrace then readTagged r
    else if b = quote then readName r
    else faultPast (b :: r) .expectedValue

def ofJson (text : String) : Except Json.Error Severity := document readJson text

def toJson (v : Severity) : String := String.ofList (printString v.name)

end LineLogger.Severity
