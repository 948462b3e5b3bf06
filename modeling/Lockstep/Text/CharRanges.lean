/-!
# Ranges of characters

A set of characters is given by ranges of their numbers, each with its first and its last one, in
ascending order and with a gap between two of them. Tables of Unicode properties are written this way.
`contains_iff` says what is in such a set.
-/

namespace Lockstep

/-- The first and the last number of each range. -/
abbrev CharRanges := List (Nat × Nat)

namespace CharRanges

/-- The character lies in one of the ranges. -/
def contains (ranges : CharRanges) (c : Char) : Bool :=
  ranges.any fun (first, last) => first ≤ c.toNat && c.toNat ≤ last

/-- The ranges are not empty, they ascend from a number on, and no two of them touch. -/
def ascendFrom : Nat → CharRanges → Bool
  | _, [] => true
  | least, (first, last) :: rest => least ≤ first && first ≤ last && ascendFrom (last + 2) rest

theorem contains_iff {ranges : CharRanges} {c : Char} :
    ranges.contains c = true ↔
      ∃ range ∈ ranges, range.1 ≤ c.toNat ∧ c.toNat ≤ range.2 := by
  simp [contains]

theorem least_le_of_mem {least : Nat} {ranges : CharRanges} (h : ascendFrom least ranges = true) :
    ∀ range ∈ ranges, least ≤ range.1 := by
  induction ranges generalizing least with
  | nil => simp
  | cons head rest ih =>
    obtain ⟨first, last⟩ := head
    simp only [ascendFrom, Bool.and_eq_true, decide_eq_true_eq] at h
    intro range hr
    rcases List.mem_cons.1 hr with rfl | hr
    · exact h.1.1
    · have := ih h.2 range hr
      omega

/-- A character in front of the ranges is in none of them. -/
theorem contains_eq_false_of_lt {least : Nat} {ranges : CharRanges}
    (h : ascendFrom least ranges = true) {c : Char} (hc : c.toNat < least) :
    ranges.contains c = false := by
  rw [Bool.eq_false_iff]
  intro found
  obtain ⟨range, hr, lower, _⟩ := contains_iff.1 found
  have := least_le_of_mem h range hr
  omega

end CharRanges

end Lockstep
