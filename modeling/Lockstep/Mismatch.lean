import Lockstep.Event
import Lockstep.Settings
import Lockstep.Trace

/-!
# Mismatches

A golden entry is **normalized** to the record that a harness could have seen of it, and compared
with the record of the retired device entry at the same place. `Record.firstDifference?` names the
first field that differs, in the order pc, instruction, register, register value, address, memory
value; it is `none` exactly when the records are equal (`firstDifference?_eq_none_iff`).

`compareTraces` lists the mismatches of a whole trace. Where the device has no retired entry left, it adds
one last mismatch of kind `truncated` and stops.
-/

namespace Lockstep

/-- Which field is the first to differ. -/
inductive MismatchKind where
  | pc
  | instr
  /-- Both wrote a register, but not the same one. -/
  | regDest
  /-- The same register, but not the same value. -/
  | regValue
  /-- Only the golden entry wrote a register. -/
  | missingRegWrite
  /-- Only the device wrote a register. -/
  | extraRegWrite
  | memAddr
  | memValue
  /-- Only the golden entry wrote memory. -/
  | missingMemWrite
  /-- Only the device wrote memory. -/
  | extraMemWrite
  /-- The device has no retired entry left. -/
  | truncated
  deriving DecidableEq, Repr

namespace MismatchKind

def text : MismatchKind → String
  | .pc => "PC mismatch"
  | .instr => "instruction mismatch"
  | .regDest => "register destination mismatch"
  | .regValue => "register value mismatch"
  | .missingRegWrite => "missing register write in DUT"
  | .extraRegWrite => "extra register write in DUT"
  | .memAddr => "memory address mismatch"
  | .memValue => "memory value mismatch"
  | .missingMemWrite => "missing memory write in DUT"
  | .extraMemWrite => "extra memory write in DUT"
  | .truncated => "DUT trace truncated"

/-- The kind as a key word. -/
def tag : MismatchKind → String
  | .pc => "pc"
  | .instr => "instr"
  | .regDest => "reg_dest"
  | .regValue => "reg_value"
  | .missingRegWrite => "missing_reg_write"
  | .extraRegWrite => "extra_reg_write"
  | .memAddr => "mem_addr"
  | .memValue => "mem_value"
  | .missingMemWrite => "missing_mem_write"
  | .extraMemWrite => "extra_mem_write"
  | .truncated => "truncated"

def all : List MismatchKind :=
  [.pc, .instr, .regDest, .regValue, .missingRegWrite, .extraRegWrite, .memAddr, .memValue,
   .missingMemWrite, .extraMemWrite, .truncated]

/-- The kind of a key word. -/
def ofTag? (tag : String) : Option MismatchKind := all.find? (·.tag == tag)

end MismatchKind

/-- How two optional writes differ in their place: only one of them is there, or the places differ.
`none` when the places agree. -/
def placeDifference? {α : Type} [DecidableEq α] (missing extra differs : MismatchKind) :
    (golden device : Option α) → Option MismatchKind
  | some _, none => some missing
  | none, some _ => some extra
  | some g, some d => if g = d then none else some differs
  | none, none => none

namespace Record

/-- The first field in which a device record differs from the golden one. A device record without
any field stands for an entry that is not there. -/
def firstDifference? (golden device : Record) : Option MismatchKind :=
  if golden = device then none
  else if device = Record.empty then some .truncated
  else if golden.pc ≠ device.pc then some .pc
  else if golden.instr ≠ device.instr then some .instr
  else
    placeDifference? .missingRegWrite .extraRegWrite .regDest golden.targetReg device.targetReg
    <|> (if golden.regVal ≠ device.regVal then some .regValue else none)
    <|> placeDifference? .missingMemWrite .extraMemWrite .memAddr golden.memAddr device.memAddr
    <|> some .memValue

theorem firstDifference?_eq_none_iff (golden device : Record) :
    golden.firstDifference? device = none ↔ golden = device := by
  unfold firstDifference?
  constructor
  · intro h
    by_cases e : golden = device
    · exact e
    · rw [if_neg e] at h
      repeat' split at h
      all_goals simp_all
  · intro h
    rw [if_pos h]

end Record

/-- A golden entry and the device record that should have been equal to it. -/
structure Mismatch where
  /-- The place in the golden trace. -/
  index : Nat
  kind : MismatchKind
  /-- The normalized golden record. -/
  golden : Record
  /-- The device record, empty where there is none. -/
  device : Record
  deriving DecidableEq, Repr

/-- A golden entry as the harness could have seen it: without the address of a load or of a read,
and with store addresses down to their word where the device shows no more. -/
def GoldenEntry.normalized (settings : Settings) (entry : GoldenEntry) : Record :=
  let record := entry.record
  let seen := if entry.instr.isLoad || entry.isMemoryRead then none else record.memAddr
  { record with
    memAddr :=
      if settings.wordBoundaryStores && entry.instr.isStore then seen.map (· &&& ~~~3) else seen }

/-- Compare golden entries, the first of which has place `index`, with retired device entries. -/
def compareFrom (settings : Settings) :
    (index : Nat) → List GoldenEntry → (retired : List ReconciledEntry) → List Mismatch
  | _, [], _ => []
  | index, golden :: _, [] =>
    [{ index, kind := .truncated, golden := golden.normalized settings, device := .empty }]
  | index, golden :: rest, device :: retired =>
    let expected := golden.normalized settings
    let later := compareFrom settings (index + 1) rest retired
    match expected.firstDifference? device.record with
    | some kind => { index, kind, golden := expected, device := device.record } :: later
    | none => later

/-- The entries that retired, in order. -/
def retiredEntries (entries : List ReconciledEntry) : List ReconciledEntry :=
  entries.filter (!·.speculativeFetch)

/-- Compare each golden entry with the retired device entry at the same place. -/
def compareTraces (golden : List GoldenEntry) (entries : List ReconciledEntry) (settings : Settings) :
    List Mismatch :=
  compareFrom settings 0 golden (retiredEntries entries)

/-- A comparison tells of a device trace that ended before the golden trace. -/
def comparisonEvents (golden : List GoldenEntry) (mismatches : List Mismatch) : List Event :=
  (mismatches.filter (·.kind == .truncated)).map fun m =>
    { level := .warn
      message := s!"DUT trace truncated at golden entry {m.index} of {golden.length}" }

end Lockstep
