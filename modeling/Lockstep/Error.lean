import Lockstep.CommitLog.Line
import Lockstep.Files.Tree
import Lockstep.Json.Reader

/-!
# Errors

What can keep a run from doing its work. `Error.message` gives each cause in words.
-/

namespace Lockstep

/-- What can be wrong with settings. -/
inductive SettingsFault where
  /-- The text of a file is not JSON, or a setting has not the expected form. -/
  | malformed
  /-- The file holds a value that is not an object. -/
  | notAnObject (path : String)
  /-- No commit at all would be searched. -/
  | emptyWindow
  /-- A range that ends before it begins. -/
  | reversedRange (first last : UInt32)
  deriving DecidableEq, Repr

/-- What keeps a run from doing its work. -/
inductive Error where
  /-- The operating system refuses something. -/
  | io (fault : FileFault)
  /-- A file or directory cannot be used. -/
  | file (path : String) (fault : FileFault)
  /-- A trace file does not hold a trace. -/
  | malformedTrace (path : String) (fault : Json.Fault)
  /-- A line of a commit log is malformed. Lines are counted from 1. -/
  | malformedLog (path : String) (line : Nat) (fault : CommitLog.LineFault)
  | invalidSettings (fault : SettingsFault)
  /-- A directory holds no golden trace. -/
  | noGoldenTraces (directory : String)
  | simulatorNotFound
  /-- The simulator ended with another code than zero, or with none. -/
  | simulatorFailed (code : Option Int)
  | simulatorTimeout (seconds : Nat)
  /-- The workers of a batch cannot be started. -/
  | workerPool (reason : String)
  deriving DecidableEq, Repr

/-- The fault in words, where the words are those of this program: a text that is no JSON is only
reported as malformed. -/
def Json.Fault.detail? : Json.Fault → Option String
  | .malformed => none
  | .missingField name => some s!"missing field \x60{name}\x60"
  | .duplicateField name => some s!"duplicate field \x60{name}\x60"
  | .rejected reason => some reason

/-- The fault in words, where the words are those of this program. -/
def SettingsFault.detail? : SettingsFault → Option String
  | .malformed => none
  | .notAnObject path => some s!"{path}: expected a JSON object"
  | .emptyWindow => some "reorder_window must be at least 1"
  | .reversedRange first last =>
    some s!"debug_rom range {Hex.text first.toNat}..{Hex.text last.toNat} is reversed"

namespace Error

/-- A sentence, and what is known in detail. -/
def withDetail (sentence : String) : Option String → String
  | some detail => sentence ++ ": " ++ detail
  | none => sentence

def message : Error → String
  | .io fault => s!"IO error: {fault.message}"
  | .file path fault => s!"IO error on {path}: {fault.message}"
  | .malformedTrace path fault => withDetail s!"malformed trace file {path}" fault.detail?
  | .malformedLog path line fault =>
    s!"malformed commit log {path} at line {line}: {fault.message}"
  | .invalidSettings fault => withDetail "invalid configuration" fault.detail?
  | .noGoldenTraces directory => s!"no golden traces found in {directory}"
  | .simulatorNotFound => "golden simulator not found in PATH"
  | .simulatorFailed (some code) => s!"golden simulator failed with exit code Some({code})"
  | .simulatorFailed none => "golden simulator failed with exit code None"
  | .simulatorTimeout seconds => s!"golden simulator timed out after {seconds}s"
  | .workerPool reason => s!"failed to build worker pool: {reason}"

end Error

end Lockstep
