import Lockstep.Error
import Lockstep.Event
import Lockstep.Metrics

/-!
# Sessions

What a run may change: the tree of files, the events told so far and the things counted so far. An
`Action` is a part of a run. It gives a value or an error, and in both cases the session after it, so
what was done before an error stays done.
-/

namespace Lockstep

/-- What a run works on. -/
structure Session where
  files : FileTree := {}
  events : Array Event := #[]
  updates : Array Metrics.Update := #[]
  /-- How long a verification takes, in nanoseconds. -/
  verificationTime : Nat := 0

/-- A part of a run. -/
abbrev Action := EStateM Error Session

namespace Action

variable {α : Type}

/-- Tell of something. -/
def tell (events : List Event) : Action Unit :=
  modify fun s => { s with events := s.events ++ events }

/-- Tell of something small. -/
def debug (message : String) : Action Unit := tell [{ level := .debug, message }]

/-- Count something. -/
def count (updates : List Metrics.Update) : Action Unit :=
  modify fun s => { s with updates := s.updates ++ updates }

/-- Ask something of the files. -/
def ask (question : FileTree → Except Error α) : Action α := fun s =>
  match question s.files with
  | .ok a => .ok a s
  | .error e => .error e s

/-- Change the files. -/
def change (f : FileTree → Except Error FileTree) : Action Unit := fun s =>
  match f s.files with
  | .ok files => .ok () { s with files }
  | .error e => .error e s

/-- Carry an action out and give its outcome, also if that is an error. -/
def attempt (action : Action α) : Action (Except Error α) := fun s =>
  match action s with
  | .ok a s => .ok (.ok a) s
  | .error e s => .ok (.error e) s

end Action

end Lockstep
