import LineLogger.Json.Printer
import LineLogger.Json.Record
import LineLogger.Time.Format

namespace LineLogger.Time.Format

open Json

def readJson (s : Bytes) : Read Format := (readText s).map (fun p => (⟨p.1⟩, p.2))

theorem readJson_shortens : Shortens readJson := readText_shortens.map Format.mk

def ofJson (text : String) : Except Json.Error Format := document readJson text

def printJson (f : Format) : List Char := printString f.template

def toJson (f : Format) : String := String.ofList f.printJson

end LineLogger.Time.Format
