import Lockstep.Trace

/-!
# Looking ahead for a register write

A core that issues several instructions at once may retire register writes in an order that is not
program order, with the same net effect. `search` looks for an expected write among the next few
commits, and `promote` brings it to the front by a single exchange: the write that stood there goes
to the place that the found one left, so nothing is lost. What lies beyond the window is left alone.

Both functions work on the commits that are still pending. `promoteAt` is `promote` behind a cursor
into a longer list.
-/

namespace Lockstep

/-- The result of looking for an expected write. -/
inductive Lookahead where
  /-- The next commit is the expected one. -/
  | inPlace
  /-- The expected write stands `offset` places further on. -/
  | found (offset : Nat)
  /-- The window does not hold the expected write. -/
  | notFound
  deriving DecidableEq, Repr

namespace Lookahead

/-- Look for `expected` among the first `window` pending commits. The nearest one counts. -/
def search (expected : RegisterWrite) (window : Nat) (pending : List RegisterWrite) : Lookahead :=
  match (pending.take window).findIdx? (· == expected) with
  | none => .notFound
  | some 0 => .inPlace
  | some (offset + 1) => .found (offset + 1)

/-- Exchange the head of a list with the element `offset` places behind it. A list without that
element stays as it is. -/
def exchange {α : Type} (offset : Nat) (xs : List α) : List α :=
  match xs[0]?, xs[offset]? with
  | some first, some other => (xs.set 0 other).set offset first
  | _, _ => xs

/-- Bring `expected` to the front of the pending commits, if the window holds it. -/
def promote (expected : RegisterWrite) (window : Nat) (pending : List RegisterWrite) :
    Lookahead × List RegisterWrite :=
  match search expected window pending with
  | .found offset => (.found offset, exchange offset pending)
  | result => (result, pending)

/-- Look for `expected` from place `start` of a list of commits on. -/
def searchAt (commits : List RegisterWrite) (start : Nat) (expected : RegisterWrite)
    (window : Nat) : Lookahead :=
  search expected window (commits.drop start)

/-- Bring `expected` to place `start` of a list of commits. -/
def promoteAt (commits : List RegisterWrite) (start : Nat) (expected : RegisterWrite)
    (window : Nat) : Lookahead × List RegisterWrite :=
  let (result, pending) := promote expected window (commits.drop start)
  (result, commits.take start ++ pending)

/-! ## First facts -/

@[simp] theorem length_exchange {α : Type} (offset : Nat) (xs : List α) :
    (exchange offset xs).length = xs.length := by
  unfold exchange
  split <;> simp

/-- The search meets an expected write at the front first, unless it does not look at all. -/
theorem search_cons_self (expected : RegisterWrite) (window : Nat) (later : List RegisterWrite) :
    search expected window (expected :: later) = if window = 0 then .notFound else .inPlace := by
  cases window with
  | zero => rfl
  | succ n => simp [search, List.findIdx?_cons]

theorem promote_fst (expected : RegisterWrite) (window : Nat) (pending : List RegisterWrite) :
    (promote expected window pending).1 = search expected window pending := by
  unfold promote
  split <;> simp_all

@[simp] theorem length_promote (expected : RegisterWrite) (window : Nat)
    (pending : List RegisterWrite) :
    (promote expected window pending).2.length = pending.length := by
  unfold promote
  split <;> simp

end Lookahead

end Lockstep
