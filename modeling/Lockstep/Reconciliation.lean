import Lockstep.Event
import Lockstep.Feed
import Lockstep.Lookahead
import Lockstep.RegisterFile
import Lockstep.Settings
import Lockstep.Text.Hex

/-!
# Reconciliation

The three streams of a device trace are put together again, with the golden trace as the guide.
The golden trace is walked entry by entry, and the fetches beside it.

1. A golden entry that repeats the value of its register is not in the commit stream, so its commit
   is **spliced** in before the next one.
2. Fetches from another program counter than the awaited one are **speculative**: they are emitted
   without effect.
3. The instruction word of the fetch that **aligns** decides what is taken with it: a register
   commit, a memory access, or nothing. Loads and arithmetic may retire out of order, so their
   commit is looked for a short way ahead (`Lookahead`); jumps retire in order.
4. A spliced commit that nothing took is dropped again.

`step` does this for one golden entry, `walk` for the whole trace. Each stream only moves forward.
A stream that runs out ends the walk; this is an `Outcome`, not an error, and what was found so far
is kept.
-/

namespace Lockstep

/-- One of the three streams of a device trace. -/
inductive Stream where
  | fetches
  | commits
  | accesses
  deriving DecidableEq, Repr

def Stream.text : Stream → String
  | .fetches => "fetches"
  | .commits => "regfile commits"
  | .accesses => "memory accesses"

/-- How a reconciliation ended. -/
inductive Outcome where
  /-- Every golden entry was matched to a fetch. -/
  | complete
  /-- A stream ran out at the golden entry of this index. -/
  | exhausted (stream : Stream) (goldenIndex : Nat)
  deriving DecidableEq, Repr

/-- How many elements were taken from each stream. -/
structure Cursors where
  fetches : Nat := 0
  commits : Nat := 0
  accesses : Nat := 0
  deriving DecidableEq, Repr

/-- What was counted during a reconciliation. -/
structure Stats where
  /-- Fetches from another program counter than the awaited one. -/
  speculativeFetches : Nat := 0
  /-- Aligned fetches of an instruction word that is not recognized. -/
  unknownInstructions : Nat := 0
  /-- Commits supplied for rewrites of the same value. -/
  synthesizedCommits : Nat := 0
  /-- Commits brought forward from their place. -/
  reorderedCommits : Nat := 0
  deriving DecidableEq, Repr

instance : Add Stats where
  add a b :=
    { speculativeFetches := a.speculativeFetches + b.speculativeFetches
      unknownInstructions := a.unknownInstructions + b.unknownInstructions
      synthesizedCommits := a.synthesizedCommits + b.synthesizedCommits
      reorderedCommits := a.reorderedCommits + b.reorderedCommits }

/-- The device trace put together, as far as it went. -/
structure Reconciliation where
  /-- One entry for each fetch taken, in order. -/
  entries : List ReconciledEntry
  outcome : Outcome
  cursors : Cursors
  stats : Stats
  deriving DecidableEq, Repr

/-- Every golden entry was matched. -/
def Reconciliation.isComplete (r : Reconciliation) : Bool := r.outcome == .complete

/-- The state between two golden entries. -/
structure Progress where
  fetches : Feed Fetch
  commits : Feed RegisterWrite
  accesses : Feed MemoryAccess
  /-- The register file as the golden trace has left it. -/
  shadow : RegisterFile

namespace Progress

/-- Nothing has been taken yet. -/
def start (settings : Settings) (trace : DeviceTrace) : Progress where
  fetches := .ofList trace.fetches
  commits := .ofList trace.commits
  accesses := .ofList trace.accesses
  shadow := .filled settings.shadowResetValue

/-- How far each stream has been read. -/
def cursors (p : Progress) : Cursors :=
  { fetches := p.fetches.taken, commits := p.commits.taken, accesses := p.accesses.taken }

end Progress

namespace Reconciliation

/-! ## The parts of a step -/

/-- The commit to splice in for a golden entry: its register write, if that repeats the value that
the register has. -/
def repeatedWrite? (shadow : RegisterFile) (golden : GoldenEntry) : Option RegisterWrite :=
  golden.registerWrite?.filter shadow.repeats

/-- The entry of a fetch that did not retire here. -/
def speculative (fetch : Fetch) : ReconciledEntry :=
  { ReconciledEntry.ofFetch fetch with speculativeFetch := true }

/-- What a golden entry did to the streams once its fetch was found. -/
structure Taken where
  effect : Effect := {}
  progress : Progress
  /-- The word was not recognized, so the fetch counts as speculative. -/
  isUnknown : Bool := false
  /-- A commit was taken from the commit stream. -/
  tookCommit : Bool := false
  /-- A commit was brought forward. -/
  reordered : Bool := false
  events : List Event := []

/-- Bring the expected write to the front of the commits, if the window holds it further back. Gives
also the distance that it came. -/
def bringForward (window : Nat) (expected : Option RegisterWrite) (commits : Feed RegisterWrite) :
    Option Nat × Feed RegisterWrite :=
  match expected with
  | none => (none, commits)
  | some write =>
    match Lookahead.promote write window commits.pending with
    | (.found offset, pending) => (some offset, commits.withPending pending)
    | _ => (none, commits)

/-- Take the next register commit for a golden entry. When `mayReorder`, the golden register write is
first brought to the front, if the window holds it. The shadow register file follows the golden
trace, not the commit that was taken. -/
def takeCommit (window : Nat) (mayReorder : Bool) (golden : GoldenEntry) (p : Progress) :
    Except Stream Taken :=
  let expected := if mayReorder then golden.registerWrite? else none
  let (offset, commits) := bringForward window expected p.commits
  match commits.next? with
  | none => .error .commits
  | some (commit, rest) =>
    .ok {
      effect := { targetReg := some commit.reg, regVal := some commit.value }
      progress := { p with
        commits := rest
        shadow := (golden.registerWrite?.map p.shadow.write).getD p.shadow }
      tookCommit := true
      reordered := offset.isSome
      events := offset.toList.map fun offset =>
        { level := .debug
          message := s!"reordered commit x{commit.reg} from {commits.taken + offset}" ++
          s!" to {commits.taken}" } }

/-- Take the next memory access for a store. The lane is that of the golden address; a golden entry
without one leaves that of the access itself. -/
def takeAccess (width : StoreWidth) (golden : GoldenEntry) (p : Progress) : Except Stream Taken :=
  match p.accesses.next? with
  | none => .error .accesses
  | some (access, rest) =>
    let lane := golden.memAddr.getD access.address
    .ok {
      effect := { memAddr := some access.address, memVal := some (width.narrow access.raw lane) }
      progress := { p with accesses := rest } }

/-- Take what the instruction word of an aligned fetch calls for. -/
def takeEffect (window : Nat) (golden : GoldenEntry) (fetch : Fetch) (p : Progress) :
    Except Stream Taken :=
  match fetch.instr.category with
  | .load | .registerOp =>
    if fetch.instr.targetsZero then .ok { progress := p } else takeCommit window true golden p
  | .jump =>
    if fetch.instr.targetsZero then .ok { progress := p } else takeCommit window false golden p
  | .store width => takeAccess width golden p
  | .branch | .fence => .ok { progress := p }
  | .unknown =>
    .ok {
      progress := p
      isUnknown := true
      events := [{
        level := .warn
        message := s!"unknown instruction {Hex.word fetch.instr} at pc {Hex.word fetch.pc}," ++
          s!" treating as speculative" }] }

/-! ## One golden entry -/

/-- What one golden entry contributes. -/
structure Step where
  entries : List ReconciledEntry
  stats : Stats
  events : List Event
  /-- The state after the step. -/
  progress : Progress
  /-- The stream that ran out during the step, if one did. -/
  ranOut : Option Stream := none

/-- Match one golden entry, and emit the speculative fetches before it. -/
def step (settings : Settings) (golden : GoldenEntry) (p : Progress) : Step :=
  let repeated := repeatedWrite? p.shadow golden
  let spliceEvents : List Event := repeated.toList.map fun write =>
    { level := .debug
      message := s!"synthesizing commit x{write.reg} = {Hex.word write.value}" ++
          s!" at commit {p.commits.taken}" }
  let commits := match repeated with
    | some write => p.commits.splice write
    | none => p.commits
  let (skipped, fetches) := p.fetches.takeWhile (·.pc != golden.pc)
  let spliced : Progress := { p with commits, fetches }
  let waiting : Step := {
    entries := skipped.map speculative
    stats := {
      speculativeFetches := skipped.length
      synthesizedCommits := repeated.toList.length }
    events := spliceEvents
    progress := spliced }
  match fetches.next? with
  | none => { waiting with ranOut := some .fetches }
  | some (fetch, rest) =>
    match takeEffect settings.reorderWindow golden fetch spliced with
    | .error stream => { waiting with ranOut := some stream }
    | .ok taken =>
      let isDropped := repeated.isSome && !taken.tookCommit
      let isSynthesized := repeated.isSome && taken.tookCommit
      let after := { taken.progress with fetches := rest }
      { entries := skipped.map speculative ++ [{
          toFetch := fetch
          toEffect := taken.effect
          speculativeFetch := taken.isUnknown
          speculativeCommit := isSynthesized }]
        stats := {
          speculativeFetches := skipped.length
          unknownInstructions := if taken.isUnknown then 1 else 0
          synthesizedCommits := if isSynthesized then 1 else 0
          reorderedCommits := if taken.reordered then 1 else 0 }
        events := spliceEvents ++ taken.events
        progress := if isDropped then { after with commits := after.commits.discard } else after }

/-! ## The whole trace -/

/-- The walk along a golden trace, with the events it gave rise to. `index` is the place of the first
of the golden entries. -/
def walk (settings : Settings) :
    (index : Nat) → List GoldenEntry → Progress → Reconciliation × List Event
  | _, [], p => ({ entries := [], outcome := .complete, cursors := p.cursors, stats := {} }, [])
  | index, golden :: rest, p =>
    let s := step settings golden p
    match s.ranOut with
    | some stream =>
      ({ entries := s.entries
         outcome := .exhausted stream index
         cursors := s.progress.cursors
         stats := s.stats }, s.events)
    | none =>
      let (r, events) := walk settings (index + 1) rest s.progress
      ({ r with entries := s.entries ++ r.entries, stats := s.stats + r.stats },
       s.events ++ events)

end Reconciliation

/-- The event that tells of the end of a walk, where the end came early. -/
def Outcome.events (name : String) : Outcome → List Event
  | .complete => []
  | .exhausted stream _ => [{
      level := .warn
      message := s!"{name} trace ended before expected (out of {stream.text})" }]

/-- Reconcile a device trace with a golden trace. -/
def reconcile (golden : List GoldenEntry) (trace : DeviceTrace) (settings : Settings) :
    Reconciliation :=
  (Reconciliation.walk settings 0 golden (.start settings trace)).1

/-- Reconcile a device trace with a golden trace, and tell of it under the name of the program. -/
def reconcileWithEvents (name : String) (golden : List GoldenEntry) (trace : DeviceTrace)
    (settings : Settings) : Reconciliation × List Event :=
  let (r, events) := Reconciliation.walk settings 0 golden (.start settings trace)
  (r, events ++ r.outcome.events name)

@[simp] theorem reconcileWithEvents_fst (name : String) (golden : List GoldenEntry)
    (trace : DeviceTrace) (settings : Settings) :
    (reconcileWithEvents name golden trace settings).1 = reconcile golden trace settings := rfl

end Lockstep
