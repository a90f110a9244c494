import LineLogger.Command
import LineLogger.Concurrent
import LineLogger.Config
import LineLogger.Decimal.Digits
import LineLogger.Decimal.Shortest
import LineLogger.Error
import LineLogger.Global
import LineLogger.IoError
import LineLogger.Json.Fault
import LineLogger.Json.Float
import LineLogger.Json.Ignored
import LineLogger.Json.Number
import LineLogger.Json.Printer
import LineLogger.Json.Record
import LineLogger.Json.Scan
import LineLogger.Json.Strings
import LineLogger.Json.Typed
import LineLogger.Logger
import LineLogger.Logger.Builder
import LineLogger.Logger.Text
import LineLogger.Metrics
import LineLogger.Proofs.Calls
import LineLogger.Proofs.Chain
import LineLogger.Proofs.ChainDelivery
import LineLogger.Proofs.Delivery
import LineLogger.Proofs.Descent
import LineLogger.Proofs.Frames
import LineLogger.Proofs.History
import LineLogger.Proofs.HookDiscipline
import LineLogger.Proofs.Hooks
import LineLogger.Proofs.Outcome
import LineLogger.Proofs.PartialWrites
import LineLogger.Proofs.Streams
import LineLogger.Proofs.Utf8
import LineLogger.Severity
import LineLogger.Severity.Json
import LineLogger.Severity.Name
import LineLogger.Sink
import LineLogger.Sink.Device
import LineLogger.Sink.FileTree
import LineLogger.State
import LineLogger.State.Emission
import LineLogger.State.Execution
import LineLogger.Store
import LineLogger.Text.Lines
import LineLogger.Text.Quoted
import LineLogger.Text.Quoted.Table
import LineLogger.Text.UpperCase
import LineLogger.Text.UpperCase.Table
import LineLogger.Text.Utf8
import LineLogger.Time.Calendar
import LineLogger.Time.Format
import LineLogger.Time.Format.Json
import LineLogger.Time.Instant
import LineLogger.Time.Template
import LineLogger.Verbosity
import LineLogger.Verbosity.Json
import LineLogger.Writer
import LineLogger.Proofs.Simulation
import LineLogger.Proofs.Formatting
import LineLogger.Proofs.RawCalls
import LineLogger.Proofs.IdleCalls
import LineLogger.Proofs.Records
import LineLogger.Proofs.Conservation
import LineLogger.Proofs.Moves
import LineLogger.Proofs.Threads
import LineLogger.Proofs.Calendar
import LineLogger.Proofs.Numerals
import LineLogger.Proofs.Stamps
import LineLogger.Proofs.StampOrder
import LineLogger.Proofs.Lines
import LineLogger.Proofs.Json.Grammar
import LineLogger.Proofs.Json.Lexemes
import LineLogger.Proofs.Json.Skipping
import LineLogger.Proofs.Json.Reading
import LineLogger.Proofs.Json.Agreement
import LineLogger.Proofs.Json.Objects
import LineLogger.Proofs.Json.Printing
import LineLogger.Proofs.Documents
import LineLogger.Proofs.RoundTrip
import LineLogger.Proofs.Building
import LineLogger.Proofs.Moments
import LineLogger.Proofs.Deposits
import LineLogger.Proofs.TextIntegrity
import LineLogger.Proofs.TextLines
import LineLogger.Proofs.ReadBack
import LineLogger.Proofs.Footprint
import LineLogger.Proofs.Reach
import LineLogger.Proofs.StampCharacters
import LineLogger.Proofs.Directives
import LineLogger.Proofs.Rendering
import LineLogger.Proofs.MessagePaths
import LineLogger.Proofs.Renaming
import LineLogger.Proofs.Parallel
import LineLogger.Proofs.Mirroring
import LineLogger.Proofs.Facade
import LineLogger.Proofs.Spellings
import LineLogger.Proofs.Levels
import LineLogger.Proofs.Flushing
import LineLogger.Proofs.Sending
import LineLogger.Proofs.Thresholds
import LineLogger.Proofs.Families
import LineLogger.Proofs.Segments
import LineLogger.Proofs.Decoding
import LineLogger.Proofs.Appending
import LineLogger.Proofs.Exchange
import LineLogger.Proofs.FileSinks
