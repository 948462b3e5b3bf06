import Lockstep.Batch
import Lockstep.CommandLine.Command
import Lockstep.Report

/-!
# Carrying out commands

`Command.answer` carries a command out. What it does to the files, what it tells and what it counts are
in the session after it; its answer says whether it succeeded and what is printed. `run` begins with
the arguments of the program and ends with its exit code.

A command fails if it cannot do its work. A mismatch is a failure only if it is asked for that.
-/

namespace Lockstep.CommandLine

/-- One thing that is printed. -/
inductive Printed where
  /-- A part of the result. -/
  | result (text : String)
  /-- A line beside the result. -/
  | note (line : String)
  deriving DecidableEq, Repr

namespace Printed

def failure (text : String) : Printed := .note ("✗ " ++ text)

def success (text : String) : Printed := .note ("✓ " ++ text)

def warning (text : String) : Printed := .note ("! " ++ text)

def progress (text : String) : Printed := .note ("→ " ++ text)

/-- A note on a file that was written. -/
def written (path : String) : Printed := .note ("  → " ++ path)

/-- All results, one after the other. -/
def results (printed : List Printed) : String :=
  String.join (printed.map fun
    | .result text => text
    | .note _ => "")

/-- All notes, each with its line end. -/
def notes (printed : List Printed) : String :=
  String.join (printed.map fun
    | .result _ => ""
    | .note line => line ++ "\n")

end Printed

/-- What comes of a command. -/
structure Answer where
  succeeded : Bool
  printed : List Printed := []
  deriving DecidableEq, Repr

/-- A command that fails with a note. -/
def Answer.failed (text : String) : Answer where
  succeeded := false
  printed := [.failure text]

/-- What the commands use beside the files. -/
structure Machine where
  /-- The simulator, if there is one. -/
  simulator : Option Simulator := none
  /-- How many workers a batch has if nothing is said about it. -/
  cores : Nat := 1
  /-- What starts the workers of a batch. -/
  pool : WorkerPool := .unlimited

/-- How many workers a batch has if so many are asked for. Zero leaves it to the machine. -/
def Machine.workers (machine : Machine) (asked : Nat) : Nat :=
  if asked = 0 then machine.cores else asked

/-! ## The commands -/

/-- A note on a device trace that ends too early. -/
def exhaustionNotes (report : ProgramReport) : List Printed :=
  match report.outcome with
  | .complete => []
  | .exhausted stream index =>
    [.warning s!"{report.name} DUT trace ended at golden entry {index} (out of {stream.text})"]

/-- The report on a program as it is printed. -/
def printedReport (report : ProgramReport) : Printed :=
  .result (Report.render false report.name report.mismatches)

/-- Notes on the files that keep a verification. -/
def outputNotes (report : ProgramReport) : List Printed :=
  match report.files with
  | some files => [.written files.reconciled, .written files.mismatches]
  | none => []

/-- Verify one pair of traces. -/
def compare (golden device : String) (output : Option String) (strict : Bool)
    (settings : Settings) : Action Answer := do
  let pair : TracePair := { name := Path.baseName golden, golden, device }
  match ← Action.attempt (verifyPair pair output settings) with
  | .error e =>
    Action.count (Metrics.ofVerdict .error)
    return .failed s!"{pair.name}: {e.message}"
  | .ok report =>
    Action.count (Metrics.ofVerdict report.verdict)
    return {
      succeeded := report.passed || !strict
      printed := exhaustionNotes report ++ [printedReport report] ++ outputNotes report }

/-- What is printed of one entry of a batch. -/
def printedEntry (entry : BatchEntry) : Printed :=
  match entry.result with
  | .ok report => printedReport report
  | .error e => .failure s!"{entry.name}: {e.message}"

/-- The last line about a batch. -/
def batchSummary (report : BatchReport) : String :=
  s!"{report.passed} passed, {report.failed} failed, {report.errored} errored, " ++
    s!"{report.skipped.length} skipped"

/-- What comes of a batch. -/
def batchAnswer (report : BatchReport) (strict : Bool) : Answer :=
  let summary := batchSummary report
  let entries := report.entries.map printedEntry
  if 0 < report.errored || (strict && 0 < report.failed) then
    { succeeded := false, printed := entries ++ [.failure summary] }
  else if 0 < report.failed then
    { succeeded := true, printed := entries ++ [.warning summary] }
  else { succeeded := true, printed := entries ++ [.success summary] }

/-- What comes of a batch, also if it was not carried out. -/
def batchOutcome (result : Except Error BatchReport) (strict : Bool) : Answer :=
  match result with
  | .ok report => batchAnswer report strict
  | .error e => .failed e.message

/-- What is printed before the pairs of a batch are verified. -/
def batchOpening (pairing : Pairing) : List Printed :=
  pairing.skipped.map (fun s => .result s!"DUT trace file not found: {s.missing}\n") ++
    [.progress s!"Verifying {pairing.pairs.length} binaries ({pairing.skipped.length} skipped)"]

/-- Verify every pair of traces in two directories. -/
def batch (machine : Machine) (goldenDirectory deviceDirectory : String) (output : Option String)
    (workers : Nat) (strict : Bool) (settings : Settings) : Action Answer := do
  let pairing ← pairTraces goldenDirectory deviceDirectory
  let result ← Action.attempt
    (runPairs machine.pool pairing output (machine.workers workers) settings)
  let answer := batchOutcome result strict
  return { answer with printed := batchOpening pairing ++ answer.printed }

/-- Make the golden trace of one program. Says whether it was made, and what is printed. -/
def goldenRun (simulator : Simulator) (output : String) (options : SimulatorOptions)
    (filter : LogFilter) (program : String) : Action (Bool × List Printed) := do
  match ← Action.attempt (simulator.generate program output options filter) with
  | .ok path => return (true, [.success program, .written path])
  | .error e => return (false, [.failure s!"{program}: {e.message}"])

/-- The programs that a path stands for: itself, or the programs in it if it is a directory. -/
def programsAt (path : String) (files : FileTree) : Except Error (List String) :=
  if files.isDirectory path then findPrograms path files else .ok [path]

/-- Make golden traces of a program or of every program in a directory. -/
def golden (machine : Machine) (input output : String) (options : SimulatorOptions)
    (settings : Settings) : Action Answer := do
  match machine.simulator with
  | none =>
    return {
      succeeded := false
      printed := [
        .failure "Spike not found in PATH",
        .note "Install from https://github.com/riscv-software-src/riscv-isa-sim"] }
  | some simulator =>
    let programs ← Action.ask (programsAt input)
    if programs.isEmpty then return .failed s!"No ELF files found in {input}"
    let runs ← programs.mapM (goldenRun simulator output options settings.golden)
    let printed := runs.flatMap Prod.snd
    let failures := runs.countP (!·.1)
    if 0 < failures then
      return {
        succeeded := false
        printed := printed ++ [
          .failure s!"{failures} of {programs.length} golden runs failed"] }
    else return { succeeded := true, printed }

/-- Make a golden trace of a commit log. -/
def parseLog (input output : String) (settings : Settings) : Action Answer := do
  let entries := settings.golden.apply (← Action.ask (TraceFile.readLog input))
  Action.change (TraceFile.writeGolden output entries)
  return {
    succeeded := true
    printed := [.success s!"Wrote {entries.length} golden entries", .written output] }

/-- Carry a command out. -/
def Command.answer (machine : Machine) (settings : Settings) : Command → Action Answer
  | .compare goldenTrace device output flags =>
    CommandLine.compare goldenTrace device output flags.strict settings
  | .batch goldenDirectory deviceDirectory output workers flags =>
    CommandLine.batch machine goldenDirectory deviceDirectory output workers flags.strict settings
  | .golden input output options => CommandLine.golden machine input output options settings
  | .parseLog input output => CommandLine.parseLog input output settings

/-! ## The program -/

/-- Read the settings and carry the command out. -/
def Invocation.action (machine : Machine) (invocation : Invocation) : Action Answer := do
  let (events, settings) :=
    invocation.command.flags.settings invocation.settingsFiles (← get).files
  Action.tell events
  invocation.command.answer machine (← Action.ask fun _ => settings)

/-- Carry an invocation out. An error that nothing else is said about is a failure with a note. -/
def Invocation.answer (machine : Machine) (invocation : Invocation) (session : Session) :
    Answer × Session :=
  match invocation.action machine session with
  | .ok answer session => (answer, session)
  | .error e session => (.failed e.message, session)

/-- What was counted, as it is printed after a command. -/
def printedMetrics (session : Session) : Printed :=
  .result ((Metrics.ofUpdates session.updates.toList).summary ++ "\n")

/-- The name of the program with its version. -/
def versionText : String := "tracesync 0.1.0\n"

/-- How the program is called. -/
def helpText : String :=
  "Usage: tracesync [OPTIONS] <COMMAND>\n\n" ++
    "Commands: compare, batch, golden, parse-log\n" ++
    "Options: --metrics, -v/--verbose, -q/--silent, --config <FILE>, -h/--help, -V/--version\n"

/-- What is wrong with arguments, in words. -/
def Misuse.message : Misuse → String
  | .unknownSwitch spelling => s!"unexpected argument '{spelling}' found"
  | .unexpectedWord word => s!"unexpected argument '{word}' found"
  | .missingValue switch => s!"a value is required for '--{switch.long}' but none was supplied"
  | .unexpectedValue switch => s!"unexpected value for '--{switch.long}' found"
  | .invalidValue switch text => s!"invalid value '{text}' for '--{switch.long}'"
  | .emptyWord => "a value is required but none was supplied"
  | .repeated switch => s!"the argument '--{switch.long}' cannot be used multiple times"
  | .conflict first second =>
    s!"the argument '--{first.long}' cannot be used with '--{second.long}'"
  | .missingSwitch switch => s!"the argument '--{switch.long}' was not provided"
  | .missingWord => "a required argument was not provided"
  | .missingCommand => "a command was not provided"

/-- What the program ends with. -/
structure Exit where
  code : Nat
  printed : List Printed
  deriving DecidableEq, Repr

/-- What is printed when no command is carried out. -/
def Ending.exit : Ending → Exit
  | .help => { code := 0, printed := [.result helpText] }
  | .version => { code := 0, printed := [.result versionText] }
  | .misuse cause => { code := 2, printed := [.note ("error: " ++ cause.message)] }

/-- Carry out an invocation, and show what was counted if that is asked for. -/
def Invocation.run (machine : Machine) (invocation : Invocation) (session : Session) :
    Exit × Session :=
  let (answer, session) := invocation.answer machine session
  ({ code := if answer.succeeded then 0 else 1
     printed := answer.printed ++ if invocation.metrics then [printedMetrics session] else [] },
   session)

/-- Carry out what the arguments of the program ask for. -/
def run (machine : Machine) (arguments : List String) (session : Session) : Exit × Session :=
  match Invocation.ofArguments arguments with
  | .ok invocation => invocation.run machine session
  | .error ending => (ending.exit, session)

end Lockstep.CommandLine
