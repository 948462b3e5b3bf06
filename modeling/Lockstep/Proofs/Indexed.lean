import Lockstep.Proofs.Run
import Lockstep.Proofs.Tape

/-!
# Reconciliation by places

A reconciliation can be carried out on arrays: three streams as they were recorded, a cursor into each of
them, and the entries and counts so far. Commits are then spliced in, taken away again and exchanged at
places of one array, a register is looked up by its index, and a count is lowered. Each of these can go
wrong, and `Indexed.step` says so where it does (`Violation`).

That nothing ever does, and that the outcome is that of `reconcile`, is proved in `Proofs/Bounds`.
-/

namespace Lockstep

namespace Indexed

/-- Whole streams with a cursor into each of them, and what was emitted and counted so far. -/
structure State where
  fetches : Tape Fetch
  commits : Tape RegisterWrite
  accesses : Tape MemoryAccess
  /-- The register file as the golden trace has left it. -/
  shadow : RegisterFile
  entries : List ReconciledEntry := []
  stats : Stats := {}

namespace State

def start (settings : Settings) (trace : DeviceTrace) : State where
  fetches := { cells := trace.fetches }
  commits := { cells := trace.commits }
  accesses := { cells := trace.accesses }
  shadow := .filled settings.shadowResetValue

/-- What the arrays show. -/
def progress (s : State) : Progress :=
  { fetches := s.fetches.feed, commits := s.commits.feed, accesses := s.accesses.feed
    shadow := s.shadow }

/-- No cursor is behind the end of its stream. -/
structure InBounds (s : State) : Prop where
  fetches : s.fetches.InBounds
  commits : s.commits.InBounds
  accesses : s.accesses.InBounds

def finish (outcome : Outcome) (s : State) : Reconciliation :=
  { entries := s.entries, outcome, cursors := s.progress.cursors, stats := s.stats }

end State

/-! ## The parts of a step -/

/-- The value of a register. -/
def readRegister (file : RegisterFile) (index : Nat) : Except Violation UInt32 :=
  match file[index]? with
  | some value => .ok value
  | none => .error (.register index)

/-- Splice the write of a golden entry in, if it repeats. Gives the write that was spliced in. -/
def splice (golden : GoldenEntry) (s : State) : Except Violation (Option RegisterWrite × State) :=
  match golden.registerWrite? with
  | none => .ok (none, s)
  | some write =>
    if write.reg.toNat = 0 ∨ registerCount ≤ write.reg.toNat then .ok (none, s)
    else do
      let value ← readRegister s.shadow write.reg.toNat
      if value = write.value then
        let commits ← s.commits.insert write
        return (some write, { s with
          commits
          stats := { s.stats with synthesizedCommits := s.stats.synthesizedCommits + 1 } })
      else return (none, s)

/-- Take the write that was spliced in away again, and count it no more. -/
def drop (write : RegisterWrite) (s : State) : Except Violation State := do
  let (removed, commits) ← s.commits.remove
  -- Whatever else happened in the step, it has to be the write that was spliced in.
  if removed ≠ write then throw (.stray removed write)
  if s.stats.synthesizedCommits = 0 then throw .underflow
  return { s with
    commits
    stats := { s.stats with synthesizedCommits := s.stats.synthesizedCommits - 1 } }

/-- Emit fetches as speculative until there is one from the awaited program counter. -/
def align (golden : GoldenEntry) (s : State) : Option Fetch × State :=
  if h : s.fetches.place < s.fetches.cells.length then
    let fetch := s.fetches.cells[s.fetches.place]
    if fetch.pc = golden.pc then (some fetch, s)
    else align golden { s with
      fetches := s.fetches.advance
      entries := s.entries ++ [Reconciliation.speculative fetch]
      stats := { s.stats with speculativeFetches := s.stats.speculativeFetches + 1 } }
  else (none, s)
termination_by s.fetches.cells.length - s.fetches.place
decreasing_by
  show s.fetches.cells.length - (s.fetches.place + 1) < _
  omega

/-- Exchange the commit at the cursor with the expected one, if the window holds it further on. -/
def bringForward (limit window : Nat) (expected : Option RegisterWrite) (s : State) :
    Except Violation State :=
  match expected with
  | none => .ok s
  | some write =>
    match s.commits.search limit write window with
    | .found offset => do
      let commits ← s.commits.swap s.commits.place (s.commits.place + offset)
      return { s with
        commits
        stats := { s.stats with reorderedCommits := s.stats.reorderedCommits + 1 } }
    | .inPlace | .notFound => .ok s

/-- Take the commit at the cursor. Gives `none` at the end of the commits. -/
def takeCommit (limit window : Nat) (mayReorder : Bool) (golden : GoldenEntry) (s : State) :
    Except Violation (Option RegisterWrite × State) :=
  if s.commits.cells.length ≤ s.commits.place then .ok (none, s)
  else do
    -- The cursor was compared before the exchange, and the commit is read after it.
    let s ← bringForward limit window (if mayReorder then golden.registerWrite? else none) s
    let commit ← s.commits.read s.commits.place
    return (some commit, { s with commits := s.commits.advance })

/-- What an aligned fetch has taken. -/
structure Taken where
  state : State
  effect : Effect := {}
  isUnknown : Bool := false
  tookCommit : Bool := false

/-- Take what the instruction word of an aligned fetch calls for. Gives the stream that has run out, if one
has. -/
def takeEffect (limit window : Nat) (golden : GoldenEntry) (fetch : Fetch) (s : State) :
    Except Violation (Except Stream Taken) :=
  match fetch.instr.category with
  | .load | .registerOp | .jump =>
    if fetch.instr.targetsZero then .ok (.ok { state := s })
    else do
      match ← takeCommit limit window (fetch.instr.category != .jump) golden s with
      | (none, _) => return .error .commits
      | (some commit, s) =>
        return .ok {
          state := { s with shadow := s.shadow.follow golden }
          effect := .ofWrite commit
          tookCommit := true }
  | .store width =>
    match s.accesses.current? with
    | none => .ok (.error .accesses)
    | some access =>
      .ok (.ok {
        state := { s with accesses := s.accesses.advance }
        effect := .ofStore access.address
          (width.narrow access.raw (golden.memAddr.getD access.address)) })
  | .branch | .fence => .ok (.ok { state := s })
  | .unknown =>
    .ok (.ok {
      state := { s with
        stats := { s.stats with unknownInstructions := s.stats.unknownInstructions + 1 } }
      isUnknown := true })

/-- The state once a spliced write that nothing took was dropped. -/
def settle (spliced : Option RegisterWrite) (taken : Taken) : Except Violation State :=
  match spliced with
  | some write => if taken.tookCommit then .ok taken.state else drop write taken.state
  | none => .ok taken.state

/-! ## Whole traces -/

/-- Match one golden entry. Gives the stream that has run out, if one has. -/
def step (limit : Nat) (settings : Settings) (golden : GoldenEntry) (s : State) :
    Except Violation (Option Stream × State) := do
  let (spliced, s) ← splice golden s
  match align golden s with
  | (none, s) => return (some .fetches, s)
  | (some fetch, s) =>
    match ← takeEffect limit settings.reorderWindow golden fetch s with
    | .error stream => return (some stream, s)
    | .ok taken =>
      let s ← settle spliced taken
      return (none, { s with
        fetches := s.fetches.advance
        entries := s.entries ++ [{
          toFetch := fetch
          toEffect := taken.effect
          speculativeFetch := taken.isUnknown
          speculativeCommit := spliced.isSome && taken.tookCommit }] })

def walk (limit : Nat) (settings : Settings) :
    (index : Nat) → List GoldenEntry → State → Except Violation Reconciliation
  | _, [], s => .ok (s.finish .complete)
  | index, golden :: rest, s => do
    match ← step limit settings golden s with
    | (some stream, s) => return s.finish (.exhausted stream index)
    | (none, s) => walk limit settings (index + 1) rest s

/-- Reconcile a device trace with a golden trace. Places are numbers up to `limit`. -/
def reconcile (limit : Nat) (golden : List GoldenEntry) (trace : DeviceTrace) (settings : Settings) :
    Except Violation Reconciliation :=
  walk limit settings 0 golden (.start settings trace)

end Indexed

end Lockstep
