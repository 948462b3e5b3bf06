/-!
# Recorded streams

A `Feed` is a recorded stream with a cursor that only moves forward: how many elements have been
taken, and those that are still pending. What is pending may change (an element may be spliced in
before the next one, or the pending part replaced); what was taken is only counted.
-/

namespace Lockstep

/-- A recorded stream, read up to some point. -/
structure Feed (α : Type) where
  /-- How many elements have been taken. -/
  taken : Nat := 0
  /-- The elements that have not been taken yet. -/
  pending : List α
  deriving DecidableEq, Repr

namespace Feed

variable {α : Type}

/-- A stream of which nothing has been read. -/
def ofList (xs : List α) : Feed α := { pending := xs }

def next? (feed : Feed α) : Option (α × Feed α) :=
  match feed.pending with
  | [] => none
  | x :: xs => some (x, { taken := feed.taken + 1, pending := xs })

/-- Take elements as long as they satisfy `p`: the elements taken, and the stream after them. -/
def takeWhile (p : α → Bool) (feed : Feed α) : List α × Feed α :=
  let skipped := feed.pending.takeWhile p
  (skipped, { taken := feed.taken + skipped.length, pending := feed.pending.dropWhile p })

/-- Put an element before the next one. -/
def splice (x : α) (feed : Feed α) : Feed α := { feed with pending := x :: feed.pending }

/-- Take the next element away without counting it as taken. -/
def discard (feed : Feed α) : Feed α := { feed with pending := feed.pending.tail }

/-- Rearrange what is pending. -/
def withPending (feed : Feed α) (pending : List α) : Feed α := { feed with pending }

@[simp] theorem discard_splice (x : α) (feed : Feed α) : (feed.splice x).discard = feed := rfl

@[simp] theorem taken_splice (x : α) (feed : Feed α) : (feed.splice x).taken = feed.taken := rfl

@[simp] theorem pending_splice (x : α) (feed : Feed α) :
    (feed.splice x).pending = x :: feed.pending := rfl

@[simp] theorem next?_splice (x : α) (feed : Feed α) :
    (feed.splice x).next? = some (x, { taken := feed.taken + 1, pending := feed.pending }) := rfl

theorem next?_eq_none_iff (feed : Feed α) : feed.next? = none ↔ feed.pending = [] := by
  unfold next?
  split <;> simp_all

end Feed

end Lockstep
