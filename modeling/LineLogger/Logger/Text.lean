import LineLogger.Logger
import LineLogger.Text.Quoted

namespace LineLogger

namespace Logger

def toText (l : Logger) : String :=
  s!"Logger \x7b threshold: {l.threshold}, time_format: TimeFormat(" ++
    Text.Quoted.encode l.timeFormat.template ++ s!"), metrics: {l.metrics.toText}, .. \x7d"

/-- The same with one field a line, four spaces a level. -/
def toPrettyText (l : Logger) : String :=
  s!"Logger \x7b\n    threshold: {l.threshold},\n    time_format: TimeFormat(\n        " ++
    Text.Quoted.encode l.timeFormat.template ++
    ",\n    ),\n    metrics: LoggerMetrics \x7b\n" ++
    s!"        lines_written: {l.metrics.linesWritten},\n" ++
    s!"        lines_filtered: {l.metrics.linesFiltered},\n" ++
    s!"        write_failures: {l.metrics.writeFailures},\n" ++
    s!"        flush_failures: {l.metrics.flushFailures},\n    \x7d,\n    ..\n\x7d"

end Logger

def Writer.toText (w : Writer) (l : Logger) : String :=
  s!"LogWriter \x7b logger: {l.toText}, severity: {w.severity.name} \x7d"

end LineLogger
