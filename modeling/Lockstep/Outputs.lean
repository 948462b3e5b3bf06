import Lockstep.Mismatch
import Lockstep.Session
import Lockstep.TraceFile

/-!
# Output files

The verification of a program can be kept in two files: the reconciled trace, and the mismatches with
all words in hexadecimal.
-/

namespace Lockstep

/-- A record as it is kept, with its words in hexadecimal. -/
def Record.hexJson (record : Record) : Json :=
  let word (w : UInt32) : Json := .string (Hex.word w)
  .object
    [("pc", Json.orNull word record.pc),
     ("instr", Json.orNull word record.instr),
     ("target_reg", Json.orNull (fun reg => .nat reg.toNat) record.targetReg),
     ("reg_val", Json.orNull word record.regVal),
     ("mem_addr", Json.orNull word record.memAddr),
     ("mem_val", Json.orNull word record.memVal)]

/-- A mismatch as it is kept. -/
def Mismatch.json (m : Mismatch) : Json :=
  .object
    [("index", .nat m.index),
     ("kind", .string m.kind.tag),
     ("golden", m.golden.hexJson),
     ("dut", m.device.hexJson)]

/-- The two files of a verification. -/
structure OutputFiles where
  reconciled : String
  mismatches : String
  deriving DecidableEq, Repr

namespace OutputFiles

/-- The files for a program in a directory. -/
def within (directory name : String) : OutputFiles where
  reconciled := Path.join directory (name ++ TraceFile.reconciledSuffix)
  mismatches := Path.join directory (name ++ TraceFile.mismatchSuffix)

/-- The text of a reconciled trace. -/
def reconciledJson (entries : List ReconciledEntry) : Json :=
  .array (entries.map ReconciledEntry.json)

/-- The text of a list of mismatches. -/
def mismatchesJson (mismatches : List Mismatch) : Json := .array (mismatches.map Mismatch.json)

/-- Keep a verification in a directory, which is made if it is not there. -/
def write (directory name : String) (entries : List ReconciledEntry) (mismatches : List Mismatch) :
    Action OutputFiles := do
  Action.change fun files => (files.createDirectories directory).mapError (.file directory)
  let outputs := within directory name
  Action.change (TraceFile.write outputs.reconciled (reconciledJson entries))
  Action.change (TraceFile.write outputs.mismatches (mismatchesJson mismatches))
  return outputs

end OutputFiles

end Lockstep
