import Lockstep.Lookahead
import Mathlib.Data.List.Basic
import Mathlib.Logic.Equiv.Basic

/-!
# Bringing a commit forward

`Lookahead.promote` only rearranges: no commit is lost (`promote_perm`), and what lies beyond the window
stays there (`take_promote_perm`). If the window holds the expected write, that write is in front
afterwards (`exists_promote_eq_cons`).
-/

namespace Lockstep.Lookahead

/-! ## Exchanging -/

variable {α : Type}

theorem exchange_perm (offset : Nat) (xs : List α) : (exchange offset xs).Perm xs := by
  unfold exchange
  split
  · next first other hf ho =>
    obtain ⟨h0, rfl⟩ := List.getElem?_eq_some_iff.1 hf
    obtain ⟨h1, rfl⟩ := List.getElem?_eq_some_iff.1 ho
    exact List.set_set_perm h0 h1
  · exact .refl xs

/-- An exchange within the first `n` elements. -/
theorem take_exchange {offset n : Nat} (h : offset < n) (xs : List α) :
    (exchange offset xs).take n = exchange offset (xs.take n) := by
  have h0 : 0 < n := Nat.zero_lt_of_lt h
  unfold exchange
  rw [List.getElem?_take_of_lt h0, List.getElem?_take_of_lt h]
  split
  · rw [List.take_set, List.take_set]
  · rfl

/-- What stands behind the two places is left alone. -/
theorem exchange_append {offset : Nat} {xs : List α} (h : offset < xs.length) (later : List α) :
    exchange offset (xs ++ later) = exchange offset xs ++ later := by
  have h0 : 0 < xs.length := Nat.zero_lt_of_lt h
  unfold exchange
  rw [List.getElem?_append_left h0, List.getElem?_append_left h, List.getElem?_eq_getElem h0,
    List.getElem?_eq_getElem h]
  simp only [List.set_append, List.length_set, h0, h, if_true]

theorem getElem?_zero_exchange {offset : Nat} {xs : List α} {x : α} (h : xs[offset]? = some x) :
    (exchange offset xs)[0]? = some x := by
  obtain ⟨hlt, rfl⟩ := List.getElem?_eq_some_iff.1 h
  have h0 : 0 < xs.length := Nat.zero_lt_of_lt hlt
  unfold exchange
  rw [List.getElem?_eq_getElem h0, List.getElem?_eq_getElem hlt]
  -- With itself the first element is not exchanged at all.
  cases offset with
  | zero => simp
  | succ offset => simp [h0]

/-- An exchange of the elements is one of the places. -/
theorem getElem?_exchange {offset : Nat} {xs : List α} (h : offset < xs.length) (i : Nat) :
    (exchange offset xs)[i]? = xs[Equiv.swap 0 offset i]? := by
  have h0 : 0 < xs.length := Nat.zero_lt_of_lt h
  unfold exchange
  rw [List.getElem?_eq_getElem h0, List.getElem?_eq_getElem h, Equiv.swap_apply_def]
  simp only [List.getElem?_set, List.length_set]
  by_cases ho : offset = i
  · subst ho
    by_cases hz : offset = 0
    · subst hz
      simp [h]
    · simp [hz, h]
  · by_cases hi : i = 0
    · subst hi
      simp [ho, h0, h]
    · simp [Ne.symm hi, hi, ho, Ne.symm ho]

/-! ## Searching -/

variable {expected : RegisterWrite} {window : Nat} {pending : List RegisterWrite}

theorem of_findIdx?_eq_some {place : Nat}
    (h : (pending.take window).findIdx? (· == expected) = some place) :
    place < window ∧ pending[place]? = some expected := by
  obtain ⟨hlt, heq, -⟩ := List.findIdx?_eq_some_iff_getElem.1 h
  rw [List.length_take, Nat.lt_min] at hlt
  obtain ⟨hwindow, hlength⟩ := hlt
  rw [List.getElem_take, beq_iff_eq] at heq
  exact ⟨hwindow, List.getElem?_eq_some_iff.2 ⟨hlength, heq⟩⟩

theorem of_search_eq_found {offset : Nat} (h : search expected window pending = .found offset) :
    offset < window ∧ pending[offset]? = some expected := by
  unfold search at h
  split at h
  · cases h
  · cases h
  · next place hp =>
    cases h
    exact of_findIdx?_eq_some hp

/-- The nearest commit counts, so whoever looks further, in a longer list too, finds the same one. -/
theorem search_eq_found_of_prefix {offset larger : Nat} {longer : List RegisterWrite}
    (hlonger : pending.take window <+: longer.take larger)
    (h : search expected window pending = .found offset) :
    search expected larger longer = .found offset := by
  unfold search at h ⊢
  split at h
  · cases h
  · cases h
  · next place hp =>
    rw [hlonger.findIdx?_eq_some hp]
    exact h

/-- What the window holds behind the last commit does not matter. -/
theorem search_min {n : Nat} (h : pending.length ≤ n) :
    search expected (min window n) pending = search expected window pending := by
  unfold search
  rw [← List.take_take, List.take_of_length_le h]

theorem of_search_eq_inPlace (h : search expected window pending = .inPlace) :
    pending[0]? = some expected := by
  unfold search at h
  split at h
  · cases h
  · next hp => exact (of_findIdx?_eq_some hp).2
  · cases h

/-- The search fails exactly when the window does not hold the expected write. -/
theorem search_eq_notFound_iff :
    search expected window pending = .notFound ↔ expected ∉ pending.take window := by
  unfold search
  constructor
  · intro h hmem
    split at h
    · next hp =>
      have hne := List.findIdx?_eq_none_iff.1 hp expected hmem
      simp at hne
    · cases h
    · cases h
  · intro hnot
    have hp : (pending.take window).findIdx? (· == expected) = none := by
      rw [List.findIdx?_eq_none_iff]
      intro write hmem
      rw [beq_eq_false_iff_ne]
      rintro rfl
      exact hnot hmem
    rw [hp]

/-! ## Promoting -/

/-- Promoting is an exchange within the window, or nothing. -/
theorem promote_cases (expected : RegisterWrite) (window : Nat) (pending : List RegisterWrite) :
    (promote expected window pending).2 = pending ∨
      ∃ offset, offset < window ∧ offset < pending.length ∧
        (promote expected window pending).2 = exchange offset pending := by
  unfold promote
  cases hs : search expected window pending with
  | inPlace => exact .inl rfl
  | notFound => exact .inl rfl
  | found offset =>
      obtain ⟨hwindow, hfound⟩ := of_search_eq_found hs
      obtain ⟨hlength, -⟩ := List.getElem?_eq_some_iff.1 hfound
      exact .inr ⟨offset, hwindow, hlength, rfl⟩

theorem promote_perm (expected : RegisterWrite) (window : Nat) (pending : List RegisterWrite) :
    (promote expected window pending).2.Perm pending := by
  rcases promote_cases expected window pending with he | ⟨offset, -, -, he⟩
  · rw [he]
  · rw [he]
    exact exchange_perm offset pending

theorem take_promote_perm {n : Nat} (h : window ≤ n) :
    ((promote expected window pending).2.take n).Perm (pending.take n) := by
  rcases promote_cases expected window pending with he | ⟨offset, hwindow, -, he⟩
  · rw [he]
  · rw [he, take_exchange (Nat.lt_of_lt_of_le hwindow h)]
    exact exchange_perm offset _

/-- The expected write is in front afterwards, if the window holds it. -/
theorem exists_promote_eq_cons (h : expected ∈ pending.take window) :
    ∃ later, (promote expected window pending).2 = expected :: later := by
  have hfront : (promote expected window pending).2[0]? = some expected := by
    unfold promote
    cases hs : search expected window pending with
    | found offset => exact getElem?_zero_exchange (of_search_eq_found hs).2
    | inPlace => exact of_search_eq_inPlace hs
    | notFound => exact absurd h (search_eq_notFound_iff.1 hs)
  cases hp : (promote expected window pending).2 with
  | nil => rw [hp] at hfront; cases hfront
  | cons first later =>
      rw [hp] at hfront
      cases hfront
      exact ⟨later, rfl⟩

end Lockstep.Lookahead
