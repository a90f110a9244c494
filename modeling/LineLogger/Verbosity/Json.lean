import LineLogger.Json.Printer
import LineLogger.Json.Record
import LineLogger.Verbosity

namespace LineLogger.Verbosity

open Json

def fields : List (Member Verbosity) :=
  [.of "level" readInt32 readInt32_shortens (fun n v => { v with level := n }),
    .of "quiet" readBool readBool_shortens (fun b v => { v with quiet := b })]

def readJson (s : Bytes) : Read Verbosity := readRecord "Verbosity" fields {} s

def ofJson (text : String) : Except Json.Error Verbosity := document readJson text

def printJson (v : Verbosity) : List Char :=
  printObject [("level", Decimal.ofInt v.level.toInt), ("quiet", printBool v.quiet)]

def toJson (v : Verbosity) : String := String.ofList v.printJson

end LineLogger.Verbosity
