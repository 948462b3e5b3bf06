import Lockstep.Outputs
import Lockstep.Pairing
import Lockstep.Verification

/-!
# Verifying files

`verifyPair` verifies one pair of trace files and keeps the result if it is given a directory.
`runPairs` does so for every pair of a batch. A pair that cannot be read is an entry with an error and
does not keep the other pairs from being verified. The entries come in the order of the names.

What starts the workers of a batch is a `WorkerPool`, a parameter: the system may refuse to start them, and
then no pair is verified and no file is touched.
-/

namespace Lockstep

/-- The verification of one pair of files. -/
structure ProgramReport where
  name : String
  outcome : Outcome
  stats : Stats
  mismatches : List Mismatch
  /-- The files that were written, if the result was kept. -/
  files : Option OutputFiles
  deriving DecidableEq, Repr

def ProgramReport.passed (report : ProgramReport) : Bool := report.mismatches.isEmpty

def ProgramReport.verdict (report : ProgramReport) : Verdict :=
  if report.passed then .pass else .fail

/-- What is told of two traces before they are verified. -/
def sizeEvent (golden : List GoldenEntry) (trace : DeviceTrace) : Event where
  level := .debug
  message := s!"{golden.length} golden entries, {trace.fetches.length} fetches, " ++
    s!"{trace.commits.length} commits, {trace.accesses.length} memory accesses"

/-- Verify a pair of files, and keep the result in a directory if one is given. -/
def verifyPair (pair : TracePair) (outputDirectory : Option String) (settings : Settings) :
    Action ProgramReport := do
  let golden ← Action.ask (TraceFile.readGolden pair.golden)
  let trace ← Action.ask (TraceFile.readDevice pair.device)
  Action.tell [sizeEvent golden trace]
  let (verification, events) := verifyWithEvents pair.name golden trace settings
  Action.tell events
  let { reconciliation, mismatches } := verification
  Action.count (Metrics.ofVerification reconciliation.stats mismatches.length
    (← get).verificationTime)
  let files ← match outputDirectory with
    | some directory =>
      some <$> OutputFiles.write directory pair.name reconciliation.entries mismatches
    | none => pure none
  return {
    name := pair.name
    outcome := reconciliation.outcome
    stats := reconciliation.stats
    mismatches, files }

/-! ## Workers -/

/-- What starts the workers of a batch. -/
structure WorkerPool where
  /-- Start so many workers, or say why they cannot be started. -/
  start : Nat → Except String Unit

namespace WorkerPool

/-- A pool that starts any number of workers. -/
def unlimited : WorkerPool where
  start _ := .ok ()

/-- The pool starts so many workers when it is asked to. -/
def Starts (pool : WorkerPool) (workers : Nat) : Prop := pool.start workers = .ok ()

theorem starts_unlimited (workers : Nat) : unlimited.Starts workers := rfl

/-- Start the workers of a batch. -/
def launch (pool : WorkerPool) (workers : Nat) : Action Unit :=
  Action.ask fun _ => (pool.start workers).mapError .workerPool

end WorkerPool

/-! ## Batches -/

/-- What came of one pair of a batch. -/
structure BatchEntry where
  name : String
  result : Except Error ProgramReport

def BatchEntry.verdict (entry : BatchEntry) : Verdict :=
  match entry.result with
  | .ok report => report.verdict
  | .error _ => .error

/-- What came of a batch. -/
structure BatchReport where
  entries : List BatchEntry
  skipped : List Skipped

namespace BatchReport

def count (report : BatchReport) (verdict : Verdict) : Nat :=
  report.entries.countP (·.verdict == verdict)

def passed (report : BatchReport) : Nat := report.count .pass

/-- How many programs have mismatches. -/
def failed (report : BatchReport) : Nat := report.count .fail

def errored (report : BatchReport) : Nat := report.count .error

end BatchReport

/-- Verify one pair of a batch. -/
def runPair (outputDirectory : Option String) (settings : Settings) (pair : TracePair) :
    Action BatchEntry := do
  let entry := { name := pair.name
                 result := ← Action.attempt (verifyPair pair outputDirectory settings) }
  match entry.result with
  | .error e => Action.tell [{ level := .warn, message := s!"{pair.name}: {e.message}" }]
  | .ok _ => pure ()
  Action.count (Metrics.ofVerdict entry.verdict)
  return entry

/-- Verify the pairs of a batch one after the other, with the given number of workers. -/
def runPairs (pool : WorkerPool) (pairing : Pairing) (outputDirectory : Option String)
    (workers : Nat) (settings : Settings) : Action BatchReport := do
  Action.count (Metrics.ofWorkers workers)
  Action.count (pairing.skipped.flatMap fun _ => Metrics.ofVerdict .skip)
  pool.launch workers
  let entries ← pairing.pairs.mapM (runPair outputDirectory settings)
  return {
    entries := entries.mergeSort fun a b => decide (a.name ≤ b.name)
    skipped := pairing.skipped }

/-- Verify every pair of traces in two directories. -/
def runBatch (pool : WorkerPool) (goldenDirectory deviceDirectory : String)
    (outputDirectory : Option String) (workers : Nat) (settings : Settings) :
    Action BatchReport := do
  runPairs pool (← pairTraces goldenDirectory deviceDirectory) outputDirectory workers settings

/-! ## Listeners

A listener keeps a state of its own. It is told the entry of each pair that is done. -/

section Listeners

variable {σ : Type} (onDone : BatchEntry → σ → σ)

/-- Verify one pair of a batch, and tell the listener. -/
def runPairTelling (outputDirectory : Option String) (settings : Settings) (pair : TracePair) :
    StateT σ Action BatchEntry := do
  let entry ← runPair outputDirectory settings pair
  modify (onDone entry)
  return entry

/-- Verify the pairs of a batch, and tell the listener of each. -/
def runPairsTelling (pool : WorkerPool) (pairing : Pairing) (outputDirectory : Option String)
    (workers : Nat) (settings : Settings) : StateT σ Action BatchReport := do
  Action.count (Metrics.ofWorkers workers)
  Action.count (pairing.skipped.flatMap fun _ => Metrics.ofVerdict .skip)
  pool.launch workers
  let entries ← pairing.pairs.mapM (runPairTelling onDone outputDirectory settings)
  return {
    entries := entries.mergeSort fun a b => decide (a.name ≤ b.name)
    skipped := pairing.skipped }

/-- Verify every pair of traces in two directories, and tell the listener of each. -/
def runBatchTelling (pool : WorkerPool) (goldenDirectory deviceDirectory : String)
    (outputDirectory : Option String) (workers : Nat) (settings : Settings) :
    StateT σ Action BatchReport := do
  let pairing ← pairTraces goldenDirectory deviceDirectory
  runPairsTelling onDone pool pairing outputDirectory workers settings

end Listeners

end Lockstep
