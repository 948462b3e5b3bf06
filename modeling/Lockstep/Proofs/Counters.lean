import Mathlib.Algebra.GroupWithZero.Nat
import Lockstep.Metrics

/-!
# What counters come to

A counter that is never set is there once it was raised, and its value is what it was raised by in all
(`counter?_ofUpdates`). So the order of the updates does not matter: `counter?_of_perm` gives the value of a
counter from any list of updates with the same elements.
-/

namespace Lockstep.Metrics

variable {updates others : List Update} {key : String} {α : Type}

/-- The update sets a counter, and does not only add to it. -/
def Update.setsCounter : Update → Bool
  | .absolute _ _ => true
  | _ => false

/-- The amount by which an update raises a counter. -/
def Update.amount? (key : String) : Update → Option UInt64
  | .increment other amount => if other = key then some amount else none
  | _ => none

/-- The amounts by which a counter is raised, one after the other. -/
def amounts (key : String) (updates : List Update) : List UInt64 :=
  updates.filterMap (Update.amount? key)

/-- The value of a counter after it is raised once more. -/
def raise (old : Option UInt64) (amount : UInt64) : Option UInt64 := some (old.getD 0 + amount)

theorem amounts_append (key : String) (updates others : List Update) :
    amounts key (updates ++ others) = amounts key updates ++ amounts key others :=
  List.filterMap_append

theorem amounts_flatMap (key : String) (xs : List α) (f : α → List Update) :
    amounts key (xs.flatMap f) = xs.flatMap fun x => amounts key (f x) := by
  induction xs with
  | nil => rfl
  | cons x xs ih => rw [List.flatMap_cons, amounts_append, ih, List.flatMap_cons]

theorem amounts_flatMap_eq_nil {xs : List α} {f : α → List Update}
    (h : ∀ x ∈ xs, amounts key (f x) = []) : amounts key (xs.flatMap f) = [] := by
  rw [amounts_flatMap]
  exact List.flatMap_eq_nil_iff.2 h

/-- One update raises the counter, or leaves it alone. -/
theorem counter?_apply (metrics : Metrics) {update : Update} (h : update.setsCounter = false)
    (key : String) : (metrics.apply update).counter? key =
      (update.amount? key).elim (metrics.counter? key) (raise (metrics.counter? key)) := by
  cases update with
  | increment other amount =>
    by_cases hkey : other = key
    · simp [counter?, apply, find?_alter, Update.amount?, raise, hkey]
    · simp [counter?, apply, find?_alter, Update.amount?, hkey, Ne.symm hkey]
  | absolute other value => cases h
  | _ => rfl

theorem counter?_foldl (h : ∀ update ∈ updates, update.setsCounter = false) (metrics : Metrics)
    (key : String) : (updates.foldl apply metrics).counter? key =
      (amounts key updates).foldl raise (metrics.counter? key) := by
  induction updates generalizing metrics with
  | nil => rfl
  | cons update updates ih =>
    obtain ⟨hupdate, h⟩ := List.forall_mem_cons.1 h
    rw [List.foldl_cons, ih h, counter?_apply metrics hupdate, amounts, amounts, List.filterMap_cons]
    cases update.amount? key with
    | none => rfl
    | some amount => rfl

theorem counter?_ofUpdates (h : ∀ update ∈ updates, update.setsCounter = false) (key : String) :
    (ofUpdates updates).counter? key = (amounts key updates).foldl raise none :=
  counter?_foldl h {} key

/-- Numbers added up, if there are any. Below 2^64 that is their exact sum. -/
def total? (numbers : List Nat) : Option UInt64 :=
  if numbers = [] then none else some (.ofNat numbers.sum)

theorem foldl_raise_some (start : Nat) (numbers : List Nat) :
    (numbers.map UInt64.ofNat).foldl raise (some (.ofNat start)) =
      some (.ofNat (start + numbers.sum)) := by
  induction numbers generalizing start with
  | nil => rfl
  | cons n numbers ih =>
    rw [List.map_cons, List.foldl_cons, List.sum_cons, ← Nat.add_assoc, ← ih, UInt64.ofNat_add]
    rfl

theorem foldl_raise (numbers : List Nat) :
    (numbers.map UInt64.ofNat).foldl raise none = total? numbers := by
  cases numbers with
  | nil => rfl
  | cons n numbers =>
    have hfirst : raise none (.ofNat n) = some (.ofNat n) := congrArg some (UInt64.zero_add _)
    rw [List.map_cons, List.foldl_cons, hfirst, foldl_raise_some]
    rfl

/-- A counter that was raised by certain numbers, in whatever order. -/
theorem counter?_of_perm {numbers : List Nat} (hperm : updates.Perm others)
    (h : ∀ update ∈ others, update.setsCounter = false)
    (hamounts : amounts key others = numbers.map .ofNat) :
    (ofUpdates updates).counter? key = total? numbers := by
  have hupdates : ∀ update ∈ updates, update.setsCounter = false :=
    fun update hupdate => h update (hperm.mem_iff.1 hupdate)
  have hcomm (old : Option UInt64) (a b : UInt64) : raise (raise old a) b = raise (raise old b) a := by
    simp only [raise, Option.getD_some, UInt64.add_assoc, UInt64.add_comm a b]
  calc (ofUpdates updates).counter? key
    _ = (amounts key updates).foldl raise none := counter?_ofUpdates hupdates key
    _ = (amounts key others).foldl raise none :=
      (hperm.filterMap _).foldl_eq' (fun a _ b _ old => hcomm old a b) none
    _ = total? numbers := by rw [hamounts, foldl_raise]

end Lockstep.Metrics
