import Lockstep.Json
import Lockstep.Trace

/-!
# Entries of traces as JSON

How golden entries, device traces and reconciled entries are written, and how they are read.

An entry is an object with its fields by name, or an array with all its fields in order. Unknown
members are passed over. A known member must not come twice, and the ones that an entry cannot do
without are asked for at its end, in order. The registers of a golden entry are those that exist; the
commits of a device trace may name any byte.
-/

namespace Lockstep

open Json (Fault Reader)

/-! ## Numbers -/

/-- Read a 32-bit word. -/
def Json.Reader.word : Reader UInt32 := (Reader.natUpTo (UInt32.size - 1)).map UInt32.ofNat

def Json.Reader.byte : Reader UInt8 := (Reader.natUpTo 255).map UInt8.ofNat

def Json.Reader.truth : Reader Bool :=
  .token fun
    | .bool b => .ok b
    | _ => .error .malformed

/-- A word as it is written. -/
def Json.word (w : UInt32) : Json := .nat w.toNat

/-- Read a value for a field that has none yet. -/
def Json.Reader.once {α σ : Type} (name : String) (known : Option α) (value : Reader α)
    (store : α → σ) : Except Fault (Reader σ) :=
  if known.isSome then .error (.duplicateField name) else .ok (value.map store)

/-- The value of a field that has to be there. -/
def Json.required {α : Type} (name : String) : Option α → Except Fault α
  | some a => .ok a
  | none => .error (.missingField name)

open Json.Reader (word byte truth once)

/-! ## Golden entries -/

namespace GoldenEntry

/-- A register that exists, or `null`. -/
def register : Reader (Option UInt8) :=
  byte.orNull.mapExcept fun
    | some reg =>
      if reg.toNat < registerCount then .ok (some reg)
      else .error (.rejected s!"register index {reg} out of range (0..{registerCount})")
    | none => .ok none

/-- What is known of an entry while it is read. A field that may be `null` is known as soon as it has
been met. -/
structure Known where
  pc : Option UInt32 := none
  instr : Option UInt32 := none
  targetReg : Option (Option UInt8) := none
  regVal : Option (Option UInt32) := none
  memAddr : Option (Option UInt32) := none
  memVal : Option (Option UInt32) := none

/-- How the value of a member is read. -/
def member (known : Known) (name : String) : Except Fault (Reader Known) :=
  match name with
  | "pc" => once name known.pc word fun v => { known with pc := some v }
  | "instr" => once name known.instr word fun v => { known with instr := some v }
  | "target_reg" =>
    once name known.targetReg register fun v => { known with targetReg := some v }
  | "reg_val" => once name known.regVal word.orNull fun v => { known with regVal := some v }
  | "mem_addr" => once name known.memAddr word.orNull fun v => { known with memAddr := some v }
  | "mem_val" => once name known.memVal word.orNull fun v => { known with memVal := some v }
  | _ => .ok (Reader.skip.map fun _ => known)

/-- The entry, once all its members are known. -/
def ofKnown (known : Known) : Except Fault GoldenEntry := do
  let pc ← Json.required "pc" known.pc
  let instr ← Json.required "instr" known.instr
  return {
    pc, instr
    targetReg := known.targetReg.join
    regVal := known.regVal.join
    memAddr := known.memAddr.join
    memVal := known.memVal.join }

/-- Read the fields of an entry in order, from an array. -/
def ofArray : Reader GoldenEntry :=
  let comma := Reader.exactly .comma
  (Reader.exactly .leftBracket).andThen fun _ => word.andThen fun pc =>
    comma.andThen fun _ => word.andThen fun instr =>
    comma.andThen fun _ => register.andThen fun targetReg =>
    comma.andThen fun _ => word.orNull.andThen fun regVal =>
    comma.andThen fun _ => word.orNull.andThen fun memAddr =>
    comma.andThen fun _ => word.orNull.andThen fun memVal =>
    (Reader.exactly .rightBracket).map fun _ => { pc, instr, targetReg, regVal, memAddr, memVal }

def reader : Reader GoldenEntry :=
  .byNext fun
    | .leftBrace => (Reader.members member {}).mapExcept ofKnown
    | _ => ofArray

end GoldenEntry

/-! ## Device traces -/

namespace DeviceTrace

/-- Read the fetches of a trace. -/
def fetchesReader : Reader (List Fetch) :=
  .elements ((Reader.pair word word).map fun (pc, instr) => { pc, instr })

/-- Read the register commits of a trace. -/
def commitsReader : Reader (List RegisterWrite) :=
  .elements ((Reader.pair byte word).map fun (reg, value) => { reg, value })

/-- Read the memory accesses of a trace. -/
def accessesReader : Reader (List MemoryAccess) :=
  .elements ((Reader.pair word word).map fun (address, raw) => { address, raw })

/-- What is known of a trace while it is read. -/
structure Known where
  fetches : Option (List Fetch) := none
  commits : Option (List RegisterWrite) := none
  accesses : Option (List MemoryAccess) := none

/-- How the value of a member is read. -/
def member (known : Known) (name : String) : Except Fault (Reader Known) :=
  match name with
  | "fetches" => once name known.fetches fetchesReader fun v => { known with fetches := some v }
  | "regfile_commits" =>
    once name known.commits commitsReader fun v => { known with commits := some v }
  | "memory_accesses" =>
    once name known.accesses accessesReader fun v => { known with accesses := some v }
  | _ => .ok (Reader.skip.map fun _ => known)

/-- The trace, once all its members are known. It may do without memory accesses. -/
def ofKnown (known : Known) : Except Fault DeviceTrace := do
  let fetches ← Json.required "fetches" known.fetches
  let commits ← Json.required "regfile_commits" known.commits
  return { fetches, commits, accesses := known.accesses.getD [] }

/-- Read the streams of a trace in order, from an array. The last one may be left out. -/
def ofArray : Reader DeviceTrace :=
  let comma := Reader.exactly .comma
  let close := Reader.exactly .rightBracket
  (Reader.exactly .leftBracket).andThen fun _ => fetchesReader.andThen fun fetches =>
    comma.andThen fun _ => commitsReader.andThen fun commits =>
    .byNext fun
      | .comma =>
        comma.andThen fun _ => accessesReader.andThen fun accesses =>
          close.map fun _ => { fetches, commits, accesses }
      | _ => close.map fun _ => { fetches, commits }

def reader : Reader DeviceTrace :=
  .byNext fun
    | .leftBrace => (Reader.members member {}).mapExcept ofKnown
    | _ => ofArray

end DeviceTrace

/-! ## Writing -/

/-- The members of a fetch. -/
def Fetch.members (fetch : Fetch) : List (String × Json) :=
  [("pc", .word fetch.pc), ("instr", .word fetch.instr)]

/-- The members of an effect. What is absent is `null`. -/
def Effect.members (effect : Effect) : List (String × Json) :=
  [("target_reg", Json.orNull (fun reg => .nat reg.toNat) effect.targetReg),
   ("reg_val", Json.orNull .word effect.regVal),
   ("mem_addr", Json.orNull .word effect.memAddr),
   ("mem_val", Json.orNull .word effect.memVal)]

/-- A golden entry as it is written. -/
def GoldenEntry.json (entry : GoldenEntry) : Json :=
  .object (entry.toFetch.members ++ entry.toEffect.members)

/-- A reconciled entry as it is written. -/
def ReconciledEntry.json (entry : ReconciledEntry) : Json :=
  .object (entry.toFetch.members ++ entry.toEffect.members ++
    [("speculative_fetch", .bool entry.speculativeFetch),
     ("speculative_commit", .bool entry.speculativeCommit)])

/-! ## Reconciled entries -/

namespace ReconciledEntry

/-- What is known of an entry while it is read. -/
structure Known where
  pc : Option UInt32 := none
  instr : Option UInt32 := none
  targetReg : Option (Option UInt8) := none
  regVal : Option (Option UInt32) := none
  memAddr : Option (Option UInt32) := none
  memVal : Option (Option UInt32) := none
  speculativeFetch : Option Bool := none
  speculativeCommit : Option Bool := none

/-- How the value of a member is read. -/
def member (known : Known) (name : String) : Except Fault (Reader Known) :=
  match name with
  | "pc" => once name known.pc word fun v => { known with pc := some v }
  | "instr" => once name known.instr word fun v => { known with instr := some v }
  | "target_reg" =>
    once name known.targetReg byte.orNull fun v => { known with targetReg := some v }
  | "reg_val" => once name known.regVal word.orNull fun v => { known with regVal := some v }
  | "mem_addr" => once name known.memAddr word.orNull fun v => { known with memAddr := some v }
  | "mem_val" => once name known.memVal word.orNull fun v => { known with memVal := some v }
  | "speculative_fetch" =>
    once name known.speculativeFetch truth fun v => { known with speculativeFetch := some v }
  | "speculative_commit" =>
    once name known.speculativeCommit truth fun v => { known with speculativeCommit := some v }
  | _ => .ok (Reader.skip.map fun _ => known)

/-- The entry, once all its members are known. -/
def ofKnown (known : Known) : Except Fault ReconciledEntry := do
  let pc ← Json.required "pc" known.pc
  let instr ← Json.required "instr" known.instr
  let speculativeFetch ← Json.required "speculative_fetch" known.speculativeFetch
  let speculativeCommit ← Json.required "speculative_commit" known.speculativeCommit
  return {
    pc, instr, speculativeFetch, speculativeCommit
    targetReg := known.targetReg.join
    regVal := known.regVal.join
    memAddr := known.memAddr.join
    memVal := known.memVal.join }

/-- Read the fields of an entry in order, from an array. -/
def ofArray : Reader ReconciledEntry :=
  let comma := Reader.exactly .comma
  (Reader.exactly .leftBracket).andThen fun _ => word.andThen fun pc =>
    comma.andThen fun _ => word.andThen fun instr =>
    comma.andThen fun _ => byte.orNull.andThen fun targetReg =>
    comma.andThen fun _ => word.orNull.andThen fun regVal =>
    comma.andThen fun _ => word.orNull.andThen fun memAddr =>
    comma.andThen fun _ => word.orNull.andThen fun memVal =>
    comma.andThen fun _ => truth.andThen fun speculativeFetch =>
    comma.andThen fun _ => truth.andThen fun speculativeCommit =>
    (Reader.exactly .rightBracket).map fun _ =>
      { pc, instr, targetReg, regVal, memAddr, memVal, speculativeFetch, speculativeCommit }

def reader : Reader ReconciledEntry :=
  .byNext fun
    | .leftBrace => (Reader.members member {}).mapExcept ofKnown
    | _ => ofArray

end ReconciledEntry

end Lockstep
