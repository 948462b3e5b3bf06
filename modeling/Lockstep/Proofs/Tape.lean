import Lockstep.Feed
import Lockstep.Lookahead
import Mathlib.Data.List.Basic

/-!
# Streams by places

A `Feed` has forgotten what was taken, so nothing can go wrong in it. A `Tape` keeps a whole stream and a
place in it, as an array with a cursor does. Then every access to a place is something that can go wrong,
and here it says so: an operation on a place that is not there is a `Violation`.

What a tape has to show is a feed (`Tape.feed`). As long as its place is not behind its end
(`Tape.InBounds`), each operation at that place succeeds, keeps it so, and does to the feed what the
operation of the same purpose on feeds does.
-/

namespace Lockstep

/-- What an access can run into. -/
inductive Violation where
  /-- An element is to be put in behind the end. -/
  | insertion (place length : Nat)
  /-- There is no element at the place. -/
  | missing (place length : Nat)
  /-- There is no register of that index. -/
  | register (index : Nat)
  /-- A count of zero is to be lowered. -/
  | underflow
  /-- The commit that was taken away again is not the one that was put in. -/
  | stray (removed spliced : RegisterWrite)
  deriving DecidableEq, Repr

/-- A whole stream, and a place in it. -/
structure Tape (α : Type) where
  cells : List α
  place : Nat := 0

namespace Tape

variable {α : Type}

/-- What can still be read, and how much was. -/
def feed (tape : Tape α) : Feed α :=
  { taken := tape.place, pending := tape.cells.drop tape.place }

/-- The place is not behind the end. -/
def InBounds (tape : Tape α) : Prop := tape.place ≤ tape.cells.length

/-- The element at the place of the tape, if it is not at its end. -/
def current? (tape : Tape α) : Option α := tape.cells[tape.place]?

def advance (tape : Tape α) : Tape α := { tape with place := tape.place + 1 }

/-- The element at a place. -/
def read (tape : Tape α) (i : Nat) : Except Violation α :=
  match tape.cells[i]? with
  | some x => .ok x
  | none => .error (.missing i tape.cells.length)

/-- Put an element in at the place of the tape. -/
def insert (x : α) (tape : Tape α) : Except Violation (Tape α) :=
  if tape.place ≤ tape.cells.length then
    .ok { tape with cells := tape.cells.insertIdx tape.place x }
  else .error (.insertion tape.place tape.cells.length)

/-- Take the element at the place of the tape away, and give it. -/
def remove (tape : Tape α) : Except Violation (α × Tape α) :=
  match tape.cells[tape.place]? with
  | some x => .ok (x, { tape with cells := tape.cells.eraseIdx tape.place })
  | none => .error (.missing tape.place tape.cells.length)

/-- Exchange the elements at two places. -/
def swap (i j : Nat) (tape : Tape α) : Except Violation (Tape α) := do
  let x ← tape.read i
  let y ← tape.read j
  return { tape with cells := (tape.cells.set i y).set j x }

/-- Look for a write from the place of the tape on. Places are numbers up to `limit`: where the window ends
behind that, it is cut off, and it ends at the end of the tape in any case. -/
def search (limit : Nat) (expected : RegisterWrite) (window : Nat) (tape : Tape RegisterWrite) :
    Lookahead :=
  let stop := min (min (tape.place + window) limit) tape.cells.length
  if tape.place ≤ stop then
    match ((tape.cells.take stop).drop tape.place).findIdx? (· == expected) with
    | some 0 => .inPlace
    | some (offset + 1) => .found (offset + 1)
    | none => .notFound
  else .notFound

/-! ## In bounds -/

variable {tape : Tape α}

theorem length_cells (h : tape.InBounds) :
    tape.cells.length = tape.feed.taken + tape.feed.pending.length := by
  show _ = tape.place + (tape.cells.drop tape.place).length
  rw [List.length_drop, Nat.add_sub_cancel' h]

theorem current?_eq_head? (tape : Tape α) : tape.current? = tape.feed.pending.head? :=
  List.head?_drop.symm

theorem exists_getElem_eq {x : α} {later : List α} (h : tape.feed.pending = x :: later) :
    ∃ hlt : tape.place < tape.cells.length, tape.cells[tape.place] = x := by
  rw [← List.getElem?_eq_some_iff, ← List.head?_drop]
  exact congrArg List.head? h

/-- Where something can still be read, the tape can go on. -/
theorem feed_advance {x : α} {later : List α} (h : tape.feed.pending = x :: later) :
    tape.advance.InBounds ∧ tape.advance.feed = { taken := tape.place + 1, pending := later } := by
  obtain ⟨hlt, -⟩ := exists_getElem_eq h
  refine ⟨hlt, ?_⟩
  have htail : tape.cells.drop (tape.place + 1) = later := by
    rw [← List.tail_drop]
    exact congrArg List.tail h
  show Feed.mk (tape.place + 1) (tape.cells.drop (tape.place + 1)) = _
  rw [htail]

theorem read_of_pending {x : α} {offset : Nat} (h : tape.feed.pending[offset]? = some x) :
    tape.read (tape.place + offset) = .ok x := by
  have hcell : tape.cells[tape.place + offset]? = some x := by
    rw [← List.getElem?_drop]
    exact h
  unfold read
  rw [hcell]

theorem drop_insertIdx {n : Nat} {xs : List α} (h : n ≤ xs.length) (x : α) :
    (xs.insertIdx n x).drop n = x :: xs.drop n := by
  induction n generalizing xs with
  | zero => rfl
  | succ n ih =>
      cases xs with
      | nil => exact absurd h (Nat.not_succ_le_zero n)
      | cons first xs =>
          rw [List.insertIdx_succ_cons, List.drop_succ_cons, ih (Nat.le_of_succ_le_succ h),
            List.drop_succ_cons]

theorem insert_eq_ok (h : tape.InBounds) (x : α) :
    ∃ spliced, tape.insert x = .ok spliced ∧ spliced.InBounds ∧
      spliced.feed = tape.feed.splice x := by
  refine ⟨_, if_pos h, ?_, ?_⟩
  · show tape.place ≤ (tape.cells.insertIdx tape.place x).length
    rw [List.length_insertIdx_of_le_length h]
    exact Nat.le_succ_of_le h
  · show Feed.mk tape.place ((tape.cells.insertIdx tape.place x).drop tape.place) = _
    rw [drop_insertIdx h]
    rfl

theorem remove_eq_ok (h : tape.InBounds) {x : α} {later : List α}
    (hp : tape.feed.pending = x :: later) :
    ∃ rest, tape.remove = .ok (x, rest) ∧ rest.InBounds ∧ rest.feed = tape.feed.discard := by
  have hcell : tape.cells[tape.place]? = some x := List.getElem?_eq_some_iff.2 (exists_getElem_eq hp)
  have hlength : (tape.cells.take tape.place).length = tape.place := List.length_take_of_le h
  refine ⟨{ tape with cells := tape.cells.eraseIdx tape.place }, ?_, ?_, ?_⟩
  · unfold remove
    rw [hcell]
  · show tape.place ≤ (tape.cells.eraseIdx tape.place).length
    rw [List.eraseIdx_eq_take_drop_succ, List.length_append, hlength]
    exact Nat.le_add_right ..
  · show Feed.mk tape.place ((tape.cells.eraseIdx tape.place).drop tape.place) = _
    rw [List.eraseIdx_eq_take_drop_succ, List.drop_left' hlength, ← List.tail_drop]
    rfl

/-- The element at the place of the tape can be exchanged with one that can still be read. -/
theorem swap_eq_ok (h : tape.InBounds) {offset : Nat} (ho : offset < tape.feed.pending.length) :
    ∃ swapped, tape.swap tape.place (tape.place + offset) = .ok swapped ∧ swapped.InBounds ∧
      swapped.feed = tape.feed.withPending (Lookahead.exchange offset tape.feed.pending) := by
  have h0 : 0 < tape.feed.pending.length := Nat.zero_lt_of_lt ho
  have hfirst := read_of_pending (List.getElem?_eq_getElem h0)
  have hother := read_of_pending (List.getElem?_eq_getElem ho)
  rw [Nat.add_zero] at hfirst
  refine ⟨{ tape with
    cells := (tape.cells.set tape.place tape.feed.pending[offset]).set (tape.place + offset)
      tape.feed.pending[0] }, ?_, ?_, ?_⟩
  · unfold swap
    rw [hfirst, hother]
    rfl
  · show tape.place ≤ ((tape.cells.set _ _).set _ _).length
    rw [List.length_set, List.length_set]
    exact h
  · -- Both places are behind the cursor, so what was taken before is not touched.
    have hbehind : ¬ tape.place + offset < tape.place := by omega
    unfold Lookahead.exchange
    rw [List.getElem?_eq_getElem h0, List.getElem?_eq_getElem ho]
    show Feed.mk tape.place (((tape.cells.set _ _).set _ _).drop tape.place) = _
    rw [List.drop_set, if_neg hbehind, List.drop_set, if_neg (Nat.lt_irrefl _), Nat.sub_self,
      Nat.add_sub_cancel_left]
    rfl

/-- Cutting the window off at the largest place is looking ahead less far. -/
theorem search_eq (limit : Nat) (expected : RegisterWrite) (window : Nat) {tape : Tape RegisterWrite}
    (h : tape.InBounds) :
    tape.search limit expected window =
      Lookahead.search expected (min window (limit - tape.place)) tape.feed.pending := by
  have hbound : tape.place ≤ tape.cells.length := h
  unfold search
  by_cases hplace : tape.place ≤ min (min (tape.place + window) limit) tape.cells.length
  · have hslice : (tape.cells.take (min (min (tape.place + window) limit) tape.cells.length)).drop
        tape.place = tape.feed.pending.take (min window (limit - tape.place)) := by
      have hsize : min (min (tape.place + window) limit) tape.cells.length - tape.place =
          min (min window (limit - tape.place)) (tape.cells.length - tape.place) := by omega
      rw [List.drop_take, hsize, ← List.length_drop, ← List.take_eq_take_min]
      rfl
    simp only [if_pos hplace, hslice, Lookahead.search]
    cases (tape.feed.pending.take (min window (limit - tape.place))).findIdx? (· == expected) with
    | none => rfl
    | some offset =>
        cases offset with
        | zero => rfl
        | succ offset => rfl
  · -- Behind the largest place there is nothing left of the window.
    have hzero : min window (limit - tape.place) = 0 := by omega
    rw [if_neg hplace, hzero]
    rfl

end Tape

end Lockstep
