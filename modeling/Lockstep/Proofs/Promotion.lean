import Lockstep.Proofs.Lookahead
import Lockstep.Proofs.Tape
import Mathlib.Order.Bounds.Basic

/-!
# Bringing a commit to a place

`Lookahead.promoteAt` looks from a place of a longer list on. Where the expected write stands is told here by
its distances from that place (`offsets`). The search gives the least of them (`searchAt_eq_found_iff`), and the
commits at the two places are exchanged (`getElem?_promoteAt`). So the least distance is zero afterwards, and
whoever looks again finds the write in place (`promoteAt_promoteAt`).

On an array the end of the window is a number that cannot grow beyond a largest one. As long as every place of
the array is such a number, nothing is overlooked (`search_tape`), and the exchange is at places that are there
(`swap_tape`).
-/

namespace Lockstep.Lookahead

/-! ## Exchanging behind a place -/

section Exchange

variable {α : Type} {xs : List α} {start offset : Nat}

/-- An exchange behind a place is one of two places of the whole list. -/
theorem getElem?_take_append_exchange (h : start + offset < xs.length) (i : Nat) :
    (xs.take start ++ exchange offset (xs.drop start))[i]? =
      xs[Equiv.swap start (start + offset) i]? := by
  have hlength : (xs.take start).length = start := List.length_take_of_le (by omega)
  have hdrop : offset < (xs.drop start).length := by
    rw [List.length_drop]
    omega
  by_cases hi : i < start
  · rw [List.getElem?_append_left (hlength.symm ▸ hi), List.getElem?_take_of_lt hi,
      Equiv.swap_apply_of_ne_of_ne (by omega) (by omega)]
  · obtain ⟨j, rfl⟩ := Nat.exists_eq_add_of_le (Nat.le_of_not_lt hi)
    have hplace : Equiv.swap start (start + offset) (start + j) = start + Equiv.swap 0 offset j := by
      simp only [Equiv.swap_apply_def, Nat.add_eq_left, Nat.add_left_cancel_iff]
      split
      · rfl
      · split <;> rfl
    rw [List.getElem?_append_right (hlength.symm ▸ Nat.le_add_right ..), hlength,
      Nat.add_sub_cancel_left, getElem?_exchange hdrop, List.getElem?_drop, hplace]

/-- The exchange overwrites the two places. -/
theorem take_append_exchange (h : start + offset < xs.length) :
    xs.take start ++ exchange offset (xs.drop start) =
      (xs.set start xs[start + offset]).set (start + offset) xs[start] := by
  have hstart : start < xs.length := by omega
  apply List.ext_getElem?
  intro i
  rw [getElem?_take_append_exchange h, Equiv.swap_apply_def]
  simp only [List.getElem?_set, List.length_set]
  by_cases hother : start + offset = i
  · subst hother
    by_cases hzero : offset = 0
    · subst hzero
      simp [hstart]
    · simp [hzero, hstart, h]
  · by_cases hi : start = i
    · subst hi
      simp only [if_neg hother, if_pos hstart, if_true, List.getElem?_eq_getElem h]
    · simp [hother, hi, Ne.symm hother, Ne.symm hi]

end Exchange

variable {commits : List RegisterWrite} {start offset window limit : Nat} {expected : RegisterWrite}

/-! ## Where the write stands -/

/-- How far behind a place the expected write stands, inside the window and the list. -/
def offsets (commits : List RegisterWrite) (start : Nat) (expected : RegisterWrite) (window : Nat) :
    Set Nat :=
  {offset | start + offset < min (start + window) commits.length ∧
    commits[start + offset]? = some expected}

theorem mem_offsets_iff : offset ∈ offsets commits start expected window ↔
    ((commits.drop start).take window)[offset]? = some expected := by
  rw [List.getElem?_take, Option.ite_none_right_eq_some, List.getElem?_drop]
  constructor
  · rintro ⟨hlt, hfound⟩
    exact ⟨by omega, hfound⟩
  · rintro ⟨hwindow, hfound⟩
    obtain ⟨hlength, -⟩ := List.getElem?_eq_some_iff.1 hfound
    exact ⟨by omega, hfound⟩

theorem offsets_eq_empty_iff :
    offsets commits start expected window = ∅ ↔ expected ∉ (commits.drop start).take window := by
  rw [Set.eq_empty_iff_forall_notMem, List.mem_iff_getElem?, not_exists]
  simp only [mem_offsets_iff]

theorem isLeast_of_findIdx?
    (h : ((commits.drop start).take window).findIdx? (· == expected) = some offset) :
    IsLeast (offsets commits start expected window) offset := by
  obtain ⟨hlength, heq, hearlier⟩ := List.findIdx?_eq_some_iff_getElem.1 h
  refine ⟨mem_offsets_iff.2 (List.getElem?_eq_some_iff.2 ⟨hlength, beq_iff_eq.1 heq⟩), ?_⟩
  intro other hother
  obtain ⟨_, hfound⟩ := List.getElem?_eq_some_iff.1 (mem_offsets_iff.1 hother)
  by_contra hlt
  exact hearlier other (Nat.lt_of_not_le hlt) (beq_iff_eq.2 hfound)

/-- The nearest place is the one that a search from the front meets. -/
theorem findIdx?_eq_some_iff :
    ((commits.drop start).take window).findIdx? (· == expected) = some offset ↔
      IsLeast (offsets commits start expected window) offset := by
  refine ⟨isLeast_of_findIdx?, fun hleast => ?_⟩
  cases hfound : ((commits.drop start).take window).findIdx? (· == expected) with
  | none =>
      have hmem := List.mem_of_getElem? (mem_offsets_iff.1 hleast.1)
      have hne := List.findIdx?_eq_none_iff.1 hfound expected hmem
      simp at hne
  | some other => rw [(isLeast_of_findIdx? hfound).unique hleast]

/-! ## Searching -/

theorem searchAt_eq_notFound_iff :
    searchAt commits start expected window = .notFound ↔
      offsets commits start expected window = ∅ :=
  search_eq_notFound_iff.trans offsets_eq_empty_iff.symm

theorem searchAt_eq_inPlace_iff :
    searchAt commits start expected window = .inPlace ↔
      IsLeast (offsets commits start expected window) 0 := by
  rw [← findIdx?_eq_some_iff, searchAt, search]
  cases ((commits.drop start).take window).findIdx? (· == expected) with
  | none => simp
  | some place => cases place <;> simp

theorem searchAt_eq_found_iff :
    searchAt commits start expected window = .found offset ↔
      IsLeast (offsets commits start expected window) offset ∧ 0 < offset := by
  rw [← findIdx?_eq_some_iff, searchAt, search]
  cases ((commits.drop start).take window).findIdx? (· == expected) with
  | none => simp
  | some place =>
      cases place with
      | zero =>
          simp only [Option.some.injEq, reduceCtorEq, false_iff, not_and]
          omega
      | succ place =>
          simp only [Lookahead.found.injEq, Option.some.injEq]
          omega

theorem lt_length_of_searchAt (h : searchAt commits start expected window = .found offset) :
    start + offset < commits.length := by
  obtain ⟨⟨hlt, -⟩, -⟩ := (searchAt_eq_found_iff.1 h).1
  omega

/-! ## Promoting -/

theorem promoteAt_fst (commits : List RegisterWrite) (start : Nat) (expected : RegisterWrite)
    (window : Nat) :
    (promoteAt commits start expected window).1 = searchAt commits start expected window :=
  promote_fst expected window (commits.drop start)

theorem promoteAt_of_found (h : searchAt commits start expected window = .found offset) :
    (promoteAt commits start expected window).2 =
      commits.take start ++ exchange offset (commits.drop start) := by
  have hsearch : search expected window (commits.drop start) = .found offset := h
  simp only [promoteAt, promote, hsearch]

theorem promoteAt_of_kept (h : ∀ offset, searchAt commits start expected window ≠ .found offset) :
    (promoteAt commits start expected window).2 = commits := by
  unfold promoteAt promote
  cases hsearch : search expected window (commits.drop start) with
  | found offset => exact absurd hsearch (h offset)
  | inPlace => exact List.take_append_drop start commits
  | notFound => exact List.take_append_drop start commits

theorem getElem?_promoteAt (h : searchAt commits start expected window = .found offset) (i : Nat) :
    (promoteAt commits start expected window).2[i]? =
      commits[Equiv.swap start (start + offset) i]? := by
  rw [promoteAt_of_found h, getElem?_take_append_exchange (lt_length_of_searchAt h)]

theorem promoteAt_perm (commits : List RegisterWrite) (start : Nat) (expected : RegisterWrite)
    (window : Nat) : (promoteAt commits start expected window).2.Perm commits := by
  have hpending := promote_perm expected window (commits.drop start)
  exact (hpending.append_left _).trans (.of_eq (List.take_append_drop start commits))

/-- The expected write is at the place afterwards, if it was found. -/
theorem getElem?_promoteAt_start (h : searchAt commits start expected window ≠ .notFound) :
    (promoteAt commits start expected window).2[start]? = some expected := by
  cases hsearch : searchAt commits start expected window with
  | notFound => exact absurd hsearch h
  | inPlace =>
      obtain ⟨-, hfound⟩ := (searchAt_eq_inPlace_iff.1 hsearch).1
      rw [promoteAt_of_kept fun offset => hsearch ▸ nofun]
      exact hfound
  | found offset =>
      obtain ⟨⟨-, hfound⟩, -⟩ := (searchAt_eq_found_iff.1 hsearch).1
      rw [getElem?_promoteAt hsearch, Equiv.swap_apply_left]
      exact hfound

/-- What was brought to its place stays there. -/
theorem promoteAt_promoteAt (h : searchAt commits start expected window ≠ .notFound) :
    promoteAt (promoteAt commits start expected window).2 start expected window =
      (.inPlace, (promoteAt commits start expected window).2) := by
  have hwindow : 0 < window := by
    by_contra hzero
    apply h
    rw [searchAt_eq_notFound_iff, offsets_eq_empty_iff, Nat.eq_zero_of_not_pos hzero]
    exact List.not_mem_nil
  have hfound : searchAt (promoteAt commits start expected window).2 start expected window =
      .inPlace := by
    refine searchAt_eq_inPlace_iff.2 ⟨mem_offsets_iff.2 ?_, fun _ _ => Nat.zero_le _⟩
    rw [List.getElem?_take_of_lt hwindow, List.getElem?_drop]
    exact getElem?_promoteAt_start h
  apply Prod.ext
  · rw [promoteAt_fst, hfound]
  · rw [promoteAt_of_kept fun offset => hfound ▸ nofun]

/-! ## By places -/

/-- The end of a window that is cut off at the largest place leaves nothing out. -/
theorem search_tape (hfits : commits.length ≤ limit) :
    Tape.search limit expected window { cells := commits, place := start } =
      searchAt commits start expected window := by
  by_cases hbound : start ≤ commits.length
  · have hlength : (commits.drop start).length ≤ limit - start := by
      rw [List.length_drop]
      omega
    have hplace : Tape.InBounds { cells := commits, place := start } := hbound
    exact (Tape.search_eq limit expected window hplace).trans (search_min hlength)
  · have hempty : offsets commits start expected window = ∅ := by
      rw [offsets_eq_empty_iff, List.drop_of_length_le (Nat.le_of_not_le hbound), List.take_nil]
      exact List.not_mem_nil
    have hbehind : ¬ start ≤ min (min (start + window) limit) commits.length := by omega
    rw [searchAt_eq_notFound_iff.2 hempty]
    exact if_neg hbehind

theorem swap_tape (h : searchAt commits start expected window = .found offset) :
    Tape.swap start (start + offset) { cells := commits, place := start } =
      .ok { cells := (promoteAt commits start expected window).2, place := start } := by
  have hother := lt_length_of_searchAt h
  have hstart : start < commits.length := by omega
  rw [promoteAt_of_found h, take_append_exchange hother]
  simp only [Tape.swap, Tape.read, List.getElem?_eq_getElem hstart, List.getElem?_eq_getElem hother,
    bind, Except.bind, pure, Except.pure]

/-! ## Whole lists -/

/-- **Promoting finds the nearest expected write, and moves nothing else.** Wherever the search begins and
however large the window is, the result says how near the expected write is, and the list holds the same
commits, with those at the two places exchanged. To promote again changes nothing. The result is that of the
search alone, and of the search on an array, where the end of the window is cut off at the largest place; the
exchange is at two places of that array. -/
theorem promoteAt_exact (commits : List RegisterWrite) (start : Nat) (expected : RegisterWrite)
    (window : Nat) :
    let (result, after) := promoteAt commits start expected window
    (∀ offset, result = .found offset ↔
      IsLeast (offsets commits start expected window) offset ∧ 0 < offset) ∧
    (result = .inPlace ↔ IsLeast (offsets commits start expected window) 0) ∧
    (result = .notFound ↔ offsets commits start expected window = ∅) ∧
    (∀ offset, result = .found offset →
      (∀ i, after[i]? = commits[Equiv.swap start (start + offset) i]?) ∧
      ∀ i, i ≠ start → i ≠ start + offset → after[i]? = commits[i]?) ∧
    ((∀ offset, result ≠ .found offset) → after = commits) ∧
    after.Perm commits ∧
    (result ≠ .notFound → promoteAt after start expected window = (.inPlace, after)) ∧
    searchAt commits start expected window = result ∧
    ∀ limit, commits.length ≤ limit →
      Tape.search limit expected window { cells := commits, place := start } = result ∧
      ∀ offset, result = .found offset →
        Tape.swap start (start + offset) { cells := commits, place := start } =
          .ok { cells := after, place := start } := by
  dsimp only
  rw [promoteAt_fst]
  refine ⟨fun _ => searchAt_eq_found_iff, searchAt_eq_inPlace_iff, searchAt_eq_notFound_iff, ?_,
    promoteAt_of_kept, promoteAt_perm .., promoteAt_promoteAt, rfl, ?_⟩
  · intro offset hfound
    refine ⟨getElem?_promoteAt hfound, fun i hstart hother => ?_⟩
    rw [getElem?_promoteAt hfound, Equiv.swap_apply_of_ne_of_ne hstart hother]
  · intro limit hfits
    exact ⟨search_tape hfits, fun offset => swap_tape⟩

/-- The window is as large as numbers of 64 bits can be, so its end is cut off. The write stands in front of the
place where the search begins, and twice behind it. -/
theorem promoteAt_exact_of_largest_window :
    let limit := 0xFFFFFFFFFFFFFFFF
    let commits : List RegisterWrite := [⟨1, 5⟩, ⟨2, 6⟩, ⟨3, 7⟩, ⟨1, 5⟩, ⟨1, 5⟩]
    let after : List RegisterWrite := [⟨1, 5⟩, ⟨1, 5⟩, ⟨3, 7⟩, ⟨2, 6⟩, ⟨1, 5⟩]
    commits.length ≤ limit ∧
      promoteAt commits 1 ⟨1, 5⟩ limit = (.found 2, after) ∧
      IsLeast (offsets commits 1 ⟨1, 5⟩ limit) 2 ∧
      after[4]? = commits[4]? ∧
      promoteAt after 1 ⟨1, 5⟩ limit = (.inPlace, after) ∧
      Tape.swap 1 3 { cells := commits, place := 1 } = .ok { cells := after, place := 1 } ∧
      offsets commits limit ⟨1, 5⟩ limit = ∅ ∧
      (promoteAt commits limit ⟨1, 5⟩ limit).2 = commits := by
  intro limit commits after
  have hfits : commits.length ≤ limit := by decide
  have hpromote : promoteAt commits 1 ⟨1, 5⟩ limit = (.found 2, after) := by decide
  have hbehind : promoteAt commits limit ⟨1, 5⟩ limit = (.notFound, commits) := by decide
  have hexact := promoteAt_exact commits 1 ⟨1, 5⟩ limit
  have hnone := promoteAt_exact commits limit ⟨1, 5⟩ limit
  rw [hpromote] at hexact
  rw [hbehind] at hnone
  obtain ⟨hfound, -, -, hexchanged, -, -, hagain, -, harray⟩ := hexact
  obtain ⟨-, -, hnotFound, -, hkept, -, -, -, -⟩ := hnone
  refine ⟨hfits, hpromote, ((hfound 2).1 rfl).1, (hexchanged 2 rfl).2 4 (by decide) (by decide),
    hagain nofun, (harray limit hfits).2 2 rfl, hnotFound.1 rfl, ?_⟩
  exact (congrArg Prod.snd hbehind).trans (hkept nofun)

end Lockstep.Lookahead
