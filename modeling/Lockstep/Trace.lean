import Lockstep.Instruction

/-!
# Traces

Two recordings of one program run are told apart here.

* The **golden trace** is a list of `GoldenEntry`, one for each instruction that the reference
  simulator retired, with all its effects.
* The **device trace** (`DeviceTrace`) is what a harness saw of the device under test: three
  streams that nothing links, namely instruction fetches, changes of the register file and
  writes on the memory bus.

A `ReconciledEntry` is one fetch of the device with the effects that were found to belong to it.
Both kinds of entry are compared as a `Record`, in which every field may be absent.
-/

namespace Lockstep

def registerCount : Nat := 32

/-- An instruction fetch: where from, and which word. -/
structure Fetch where
  pc : UInt32
  instr : Instruction
  deriving DecidableEq, Repr

/-- A change of one register, as the harness sees it retire. -/
structure RegisterWrite where
  reg : UInt8
  value : UInt32
  deriving DecidableEq, Repr

/-- A write on the memory bus. `raw` is the whole bus word. -/
structure MemoryAccess where
  address : UInt32
  raw : UInt32
  deriving DecidableEq, Repr

/-- What an instruction does to the register file and to memory. Each field may be absent. -/
structure Effect where
  targetReg : Option UInt8 := none
  regVal : Option UInt32 := none
  memAddr : Option UInt32 := none
  memVal : Option UInt32 := none
  deriving DecidableEq, Repr

/-- No effect at all. -/
def Effect.none : Effect := {}

/-- One instruction retired by the reference simulator. -/
structure GoldenEntry extends Fetch, Effect where
  deriving DecidableEq, Repr

/-- One fetch of the device, with the effects that reconciliation attached to it. -/
structure ReconciledEntry extends Fetch, Effect where
  /-- The fetch did not retire at this place in program order. -/
  speculativeFetch : Bool := false
  /-- The register effect was supplied for a rewrite of the value the register already had, which
  the harness cannot see. -/
  speculativeCommit : Bool := false
  deriving DecidableEq, Repr

/-- The fields on which entries are compared. An absent device entry is `Record.empty`. -/
structure Record extends Effect where
  pc : Option UInt32 := none
  instr : Option Instruction := none
  deriving DecidableEq, Repr

/-- The record with every field absent. -/
def Record.empty : Record := {}

/-- The three streams that the harness recorded, each in order of time. -/
structure DeviceTrace where
  /-- Every fetch, also those that never retire. -/
  fetches : List Fetch := []
  /-- One entry for each observed change of a register. -/
  commits : List RegisterWrite := []
  /-- The writes on the memory bus. -/
  accesses : List MemoryAccess := []
  deriving DecidableEq, Repr

/-- The record of a fetch with a given effect. -/
def Record.of (fetch : Fetch) (effect : Effect) : Record :=
  { effect with pc := some fetch.pc, instr := some fetch.instr }

namespace GoldenEntry

/-- The register write of this instruction: present when both the register and the value are. -/
def registerWrite? (entry : GoldenEntry) : Option RegisterWrite :=
  match entry.targetReg, entry.regVal with
  | some reg, some value => some { reg, value }
  | _, _ => none

/-- The simulator gave an address without a written value. The harness never sees reads. -/
def isMemoryRead (entry : GoldenEntry) : Bool :=
  entry.memAddr.isSome && entry.memVal.isNone

/-- The entry as a comparison record. -/
def record (entry : GoldenEntry) : Record := Record.of entry.toFetch entry.toEffect

end GoldenEntry

namespace ReconciledEntry

/-- A fetch without any effect. -/
def ofFetch (fetch : Fetch) : ReconciledEntry := { toFetch := fetch, toEffect := {} }

/-- The entry as a comparison record, without its two flags. -/
def record (entry : ReconciledEntry) : Record := Record.of entry.toFetch entry.toEffect

end ReconciledEntry

end Lockstep
