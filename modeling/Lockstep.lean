import Lockstep.Instruction
import Lockstep.Trace
import Lockstep.Text.Hex
import Lockstep.Settings
import Lockstep.Event
import Lockstep.Lookahead
import Lockstep.Feed
import Lockstep.RegisterFile
import Lockstep.Reconciliation
import Lockstep.Mismatch
import Lockstep.Verification
import Lockstep.Report
import Lockstep.Text.Blank
import Lockstep.Text.Digit
import Lockstep.Text.Utf8
import Lockstep.Text.CharRanges
import Lockstep.Text.Printable
import Lockstep.Text.Combining
import Lockstep.Text.Ignorable
import Lockstep.CommitLog.Line
import Lockstep.CommitLog
import Lockstep.Json.Quoted
import Lockstep.Json.Token
import Lockstep.Json.Reader
import Lockstep.Json
import Lockstep.Text.Decimal
import Lockstep.Metrics
import Lockstep.Files.Path
import Lockstep.Files.Tree
import Lockstep.Error
import Lockstep.Session
import Lockstep.TraceFile.Header
import Lockstep.TraceFile.Entries
import Lockstep.TraceFile
import Lockstep.Settings.File
import Lockstep.Outputs
import Lockstep.Pairing
import Lockstep.Batch
import Lockstep.Simulator
import Lockstep.CommandLine.Switch
import Lockstep.CommandLine.Arguments
import Lockstep.CommandLine.Command
import Lockstep.CommandLine.Run
import Lockstep.Main
import Lockstep.Proofs.Run
import Lockstep.Proofs.Comparison
import Lockstep.Proofs.Truncation
import Lockstep.Proofs.Observation
import Lockstep.Proofs.Completeness
import Lockstep.Proofs.Lookahead
import Lockstep.Proofs.Recovery
import Lockstep.Proofs.Accounting
import Lockstep.Proofs.Soundness
import Lockstep.Proofs.Provenance
import Lockstep.Proofs.Bypass
import Lockstep.Proofs.Repetition
import Lockstep.Proofs.Bookkeeping
import Lockstep.Proofs.Window
import Lockstep.Proofs.Speculation
import Lockstep.Proofs.Localization
import Lockstep.Proofs.Exhaustion
import Lockstep.Proofs.Indexed
import Lockstep.Proofs.Bounds
import Lockstep.Proofs.Batches
import Lockstep.Proofs.Naming
import Lockstep.Proofs.Directories
import Lockstep.Proofs.Interleaving
import Lockstep.Proofs.Isolation
import Lockstep.Proofs.Jobs
import Lockstep.Proofs.Tally
import Lockstep.Proofs.ExitStatus
import Lockstep.Proofs.Tokens
import Lockstep.Proofs.Written
import Lockstep.Proofs.GoldenFiles
import Lockstep.Proofs.Numerals
import Lockstep.Proofs.CommitPattern
import Lockstep.Proofs.CommitLines
import Lockstep.Proofs.CommitLogs
import Lockstep.Proofs.LogFilters
import Lockstep.Proofs.OutputFiles
import Lockstep.Proofs.Alignment
import Lockstep.Proofs.Differences
import Lockstep.Proofs.Lanes
import Lockstep.Proofs.Shape
import Lockstep.Proofs.Unwritten
import Lockstep.Proofs.Members
import Lockstep.Proofs.Layers
import Lockstep.Proofs.Flags
import Lockstep.Proofs.ReportLines
import Lockstep.Proofs.Counters
import Lockstep.Proofs.Totals
import Lockstep.Proofs.Promotion
import Lockstep.Proofs.Headers
