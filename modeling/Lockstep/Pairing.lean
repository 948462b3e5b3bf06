import Lockstep.Session
import Lockstep.TraceFile

/-!
# Pairing traces

The golden traces of one directory are paired with the device traces of another by the name of their
program. A golden trace without a device trace is skipped. Both lists are in the order of the golden
traces' names. A file whose name is not text is no golden trace.
-/

namespace Lockstep

/-- A golden trace and the device trace of the same program. -/
structure TracePair where
  name : String
  golden : String
  device : String
  deriving DecidableEq, Repr

/-- A golden trace without a device trace, and the device trace that was looked for. -/
structure Skipped where
  name : String
  missing : String
  deriving DecidableEq, Repr

/-- All golden traces of a directory. -/
structure Pairing where
  pairs : List TracePair := []
  skipped : List Skipped := []
  deriving DecidableEq, Repr

namespace Pairing

/-- The golden traces in a directory, in ascending order. -/
def goldenTraces (files : FileTree) (directory : String) : Except Error (List String) := do
  let entries ← (files.listing directory).mapError (.file directory)
  let golden := (entries.filterMap String.fromUTF8?).filter fun name =>
    name.endsWith TraceFile.goldenSuffix && files.isFile (Path.join directory name)
  return (golden.mergeSort fun a b => decide (a ≤ b)).map (Path.join directory)

/-- The device trace that belongs to a golden trace. -/
def counterpart (deviceDirectory golden : String) : String :=
  Path.join deviceDirectory (Path.baseName golden ++ TraceFile.deviceSuffix)

/-- Pair golden traces with the device traces of a directory. -/
def ofGolden (files : FileTree) (deviceDirectory : String) (golden : List String) : Pairing where
  pairs := (golden.filter fun path => files.isFile (counterpart deviceDirectory path)).map
    fun path => {
      name := Path.baseName path
      golden := path
      device := counterpart deviceDirectory path }
  skipped := (golden.filter fun path => !files.isFile (counterpart deviceDirectory path)).map
    fun path => { name := Path.baseName path, missing := counterpart deviceDirectory path }

/-- Pair the traces of two directories. A directory without golden traces is an error. -/
def ofDirectories (goldenDirectory deviceDirectory : String) (files : FileTree) :
    Except Error Pairing := do
  let golden ← goldenTraces files goldenDirectory
  if golden.isEmpty then .error (.noGoldenTraces goldenDirectory)
  else return ofGolden files deviceDirectory golden

/-- What is told of the traces that are skipped. -/
def events (pairing : Pairing) : List Event :=
  pairing.skipped.map fun s =>
    { level := .debug, message := s!"no DUT trace for {s.name}: {s.missing}" }

end Pairing

/-- Pair the traces of two directories, and tell of those that are skipped. -/
def pairTraces (goldenDirectory deviceDirectory : String) : Action Pairing := do
  let pairing ← Action.ask (Pairing.ofDirectories goldenDirectory deviceDirectory)
  Action.tell pairing.events
  return pairing

end Lockstep
