/-!
# Events

A run tells of what it does by a list of events, each with a level and a sentence. Functions that
report return the events beside their result, in order.
-/

namespace Lockstep

/-- How much an event matters. -/
inductive Level where
  | debug
  | info
  | warn
  deriving DecidableEq, Repr

def Level.text : Level → String
  | .debug => "DEBUG"
  | .info => "INFO"
  | .warn => "WARN"

/-- How much a level matters, in a number. -/
def Level.weight : Level → Nat
  | .debug => 0
  | .info => 1
  | .warn => 2

/-- One thing that happened. -/
structure Event where
  level : Level
  message : String
  deriving DecidableEq, Repr

/-- The level, a blank and the sentence. -/
def Event.text (event : Event) : String := event.level.text ++ " " ++ event.message

end Lockstep
