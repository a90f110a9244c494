import LineLogger.Command

namespace LineLogger

namespace Writer

/-- One write of bytes is one line, even without bytes. -/
def write (v : Writer) (b : Bytes) : Command := .writeOnce (.writer v) b

def writeAll (v : Writer) (b : Bytes) : Command := .write (.writer v) b

def writeText (v : Writer) (s : String) : Command := .log v.logger v.severity false (.text s)

def writeChars (v : Writer) (s : String) : List Command :=
  s.toList.map (fun c => v.writeText (String.singleton c))

def writeFormatted (v : Writer) (s : String) : Command :=
  .log v.logger v.severity false (.formatted s)

def flush (v : Writer) : Command := .flushSink (.writer v)

end Writer

end LineLogger
