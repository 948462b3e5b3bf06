import Lockstep.Mismatch
import Lockstep.Reconciliation

/-!
# Comparisons

`compareFrom` walks two lists side by side, so it has two kinds of results, and they are told apart here:
what it finds wrong with the **pairs**, and the one mismatch of kind `truncated` that it adds where the
device has no retired entry left (`compareFrom_of_length_lt`). A pair never gives a mismatch of kind
`truncated`, because the record of a retired entry is never empty.
-/

namespace Lockstep

/-! ## Records -/

theorem ReconciledEntry.record_ne_empty (entry : ReconciledEntry) : entry.record ≠ Record.empty := by
  intro h
  cases congrArg Record.pc h

theorem placeDifference?_ne {α : Type} [DecidableEq α] {missing extra differs : MismatchKind}
    (kind : MismatchKind) (golden device : Option α)
    (hm : missing ≠ kind) (he : extra ≠ kind) (hd : differs ≠ kind) :
    placeDifference? missing extra differs golden device ≠ some kind := by
  unfold placeDifference?
  intro h
  split at h
  · exact hm (Option.some.inj h)
  · exact he (Option.some.inj h)
  · split at h
    · cases h
    · exact hd (Option.some.inj h)
  · cases h

/-- Only an absent device record counts as a truncation. -/
theorem Record.firstDifference?_ne_truncated {golden device : Record} (h : device ≠ Record.empty) :
    golden.firstDifference? device ≠ some .truncated := by
  have hreg := placeDifference?_ne .truncated golden.targetReg device.targetReg
    (by decide : MismatchKind.missingRegWrite ≠ _) (by decide : MismatchKind.extraRegWrite ≠ _)
    (by decide : MismatchKind.regDest ≠ _)
  have hmem := placeDifference?_ne .truncated golden.memAddr device.memAddr
    (by decide : MismatchKind.missingMemWrite ≠ _) (by decide : MismatchKind.extraMemWrite ≠ _)
    (by decide : MismatchKind.memAddr ≠ _)
  -- Past the first test, one field after the other says why it is not the source of the kind.
  unfold Record.firstDifference?
  rw [if_neg h]
  simp only [Option.orElse_eq_orElse, Option.orElse_eq_or]
  intro ht
  split at ht
  · cases ht
  split at ht
  · cases ht
  split at ht
  · cases ht
  rcases Option.or_eq_some_iff.1 ht with ht | ⟨-, ht⟩
  · exact hreg ht
  rcases Option.or_eq_some_iff.1 ht with ht | ⟨-, ht⟩
  · split at ht <;> cases ht
  rcases Option.or_eq_some_iff.1 ht with ht | ⟨-, ht⟩
  · exact hmem ht
  · cases ht

/-! ## Retired entries -/

theorem retiredEntries_append (entries later : List ReconciledEntry) :
    retiredEntries (entries ++ later) = retiredEntries entries ++ retiredEntries later :=
  List.filter_append ..

theorem filter_speculative {keep : ReconciledEntry → Bool}
    (h : ∀ fetch, keep (Reconciliation.speculative fetch) = false) (skipped : List Fetch) :
    (skipped.map Reconciliation.speculative).filter keep = [] := by
  rw [List.filter_eq_nil_iff]
  intro entry he
  obtain ⟨fetch, -, rfl⟩ := List.mem_map.1 he
  rw [h fetch]
  exact Bool.false_ne_true

theorem countP_speculative {keep : ReconciledEntry → Bool}
    (h : ∀ fetch, keep (Reconciliation.speculative fetch) = false) (skipped : List Fetch) :
    (skipped.map Reconciliation.speculative).countP keep = 0 := by
  rw [List.countP_eq_length_filter, filter_speculative h, List.length_nil]

theorem countP_skipped {keep : ReconciledEntry → Bool}
    (h : ∀ fetch, keep (Reconciliation.speculative fetch) = false) (skipped : List Fetch)
    (entry : ReconciledEntry) (later : List ReconciledEntry) :
    (skipped.map Reconciliation.speculative ++ entry :: later).countP keep =
      (if keep entry then 1 else 0) + later.countP keep := by
  rw [List.countP_append, countP_speculative h, List.countP_cons, Nat.zero_add, Nat.add_comm]

theorem map_toFetch_speculative (skipped : List Fetch) :
    (skipped.map Reconciliation.speculative).map (·.toFetch) = skipped := by
  rw [List.map_map]
  exact List.map_id skipped

/-- What was skipped does not retire. -/
theorem retiredEntries_speculative (skipped : List Fetch) :
    retiredEntries (skipped.map Reconciliation.speculative) = [] :=
  filter_speculative (fun _ => rfl) skipped

/-- Of the entries of one step only the last one can retire. -/
theorem retiredEntries_skipped (skipped : List Fetch) (entry : ReconciledEntry)
    (later : List ReconciledEntry) :
    retiredEntries (skipped.map Reconciliation.speculative ++ entry :: later) =
      retiredEntries [entry] ++ retiredEntries later := by
  rw [retiredEntries_append, retiredEntries_speculative, List.nil_append,
    ← List.singleton_append, retiredEntries_append]

theorem retiredEntries_singleton {entry : ReconciledEntry} (h : entry.speculativeFetch = false) :
    retiredEntries [entry] = [entry] := by
  unfold retiredEntries
  rw [List.filter_eq_self]
  intro e he
  rw [List.mem_singleton.1 he, h]
  rfl

/-! ## Pairs -/

/-- What is wrong with a golden entry and the retired entry beside it: one mismatch or none. -/
def pairMismatches (settings : Settings) (index : Nat) (golden : GoldenEntry)
    (device : ReconciledEntry) : List Mismatch :=
  ((golden.normalized settings).firstDifference? device.record).toList.map fun kind =>
    { index, kind, golden := golden.normalized settings, device := device.record }

theorem compareFrom_cons_cons (settings : Settings) (index : Nat) (golden : GoldenEntry)
    (rest : List GoldenEntry) (device : ReconciledEntry) (retired : List ReconciledEntry) :
    compareFrom settings index (golden :: rest) (device :: retired) =
      pairMismatches settings index golden device ++
        compareFrom settings (index + 1) rest retired := by
  rw [compareFrom, pairMismatches]
  cases (golden.normalized settings).firstDifference? device.record with
  | none => rfl
  | some kind => rfl

theorem pairMismatches_eq_nil_iff {settings : Settings} {index : Nat} {golden : GoldenEntry}
    {device : ReconciledEntry} :
    pairMismatches settings index golden device = [] ↔
      golden.normalized settings = device.record := by
  rw [← Record.firstDifference?_eq_none_iff, pairMismatches, List.map_eq_nil_iff,
    Option.toList_eq_nil_iff]

/-- A comparison that starts with a retired entry finds nothing wrong exactly when the entry agrees with
its golden one, and the later entries with theirs. -/
theorem compareFrom_skipped_eq_nil_iff {settings : Settings} {index : Nat} {golden : GoldenEntry}
    {rest : List GoldenEntry} {skipped : List Fetch} {entry : ReconciledEntry}
    {later : List ReconciledEntry} (h : entry.speculativeFetch = false) :
    compareFrom settings index (golden :: rest)
        (retiredEntries (skipped.map Reconciliation.speculative ++ entry :: later)) = [] ↔
      golden.normalized settings = entry.record ∧
        compareFrom settings (index + 1) rest (retiredEntries later) = [] := by
  rw [retiredEntries_skipped, retiredEntries_singleton h, List.singleton_append,
    compareFrom_cons_cons, List.append_eq_nil_iff, pairMismatches_eq_nil_iff]

theorem ne_truncated_of_mem_pairMismatches {settings : Settings} {index : Nat}
    {golden : GoldenEntry} {device : ReconciledEntry} {m : Mismatch}
    (h : m ∈ pairMismatches settings index golden device) : m.kind ≠ .truncated := by
  obtain ⟨kind, hk, rfl⟩ := List.mem_map.1 h
  intro ht
  have hsome := Option.mem_toList.1 hk
  exact Record.firstDifference?_ne_truncated device.record_ne_empty (hsome.trans (congrArg some ht))

/-! ## Truncation -/

/-- As long as there is a retired entry for each golden one, nothing is truncated. -/
theorem compareFrom_ne_truncated {settings : Settings} {golden : List GoldenEntry}
    {retired : List ReconciledEntry} (index : Nat) (h : golden.length ≤ retired.length) :
    ∀ m ∈ compareFrom settings index golden retired, m.kind ≠ .truncated := by
  induction golden generalizing index retired with
  | nil => simp [compareFrom]
  | cons entry rest ih =>
      cases retired with
      | nil => simp at h
      | cons device retired =>
          rw [compareFrom_cons_cons]
          intro m hm
          rcases List.mem_append.1 hm with hm | hm
          · exact ne_truncated_of_mem_pairMismatches hm
          · exact ih (index + 1) (Nat.le_of_succ_le_succ h) m hm

/-- Where the device has too few retired entries, the comparison ends with a truncation. -/
theorem compareFrom_of_length_lt {settings : Settings} {golden : List GoldenEntry}
    {retired : List ReconciledEntry} (index : Nat) (h : retired.length < golden.length) :
    ∃ earlier entry,
      compareFrom settings index golden retired = earlier ++ [{
        index := index + retired.length
        kind := .truncated
        golden := entry.normalized settings
        device := .empty }] ∧
      golden[retired.length]? = some entry ∧
      ∀ m ∈ earlier, m.kind ≠ .truncated := by
  induction golden generalizing index retired with
  | nil => simp at h
  | cons entry rest ih =>
      cases retired with
      | nil => exact ⟨[], entry, by simp [compareFrom], rfl, by simp⟩
      | cons device retired =>
          obtain ⟨earlier, last, heq, hlast, hne⟩ := ih (index + 1) (Nat.lt_of_succ_lt_succ h)
          refine ⟨pairMismatches settings index entry device ++ earlier, last, ?_, hlast, ?_⟩
          · rw [compareFrom_cons_cons, heq, List.append_assoc, List.length_cons,
              Nat.add_right_comm index 1 retired.length, Nat.add_assoc]
          · intro m hm
            rcases List.mem_append.1 hm with hm | hm
            · exact ne_truncated_of_mem_pairMismatches hm
            · exact hne m hm

theorem exists_truncated_iff {settings : Settings} {golden : List GoldenEntry}
    {retired : List ReconciledEntry} (index : Nat) :
    (∃ m ∈ compareFrom settings index golden retired, m.kind = .truncated) ↔
      retired.length < golden.length := by
  constructor
  · rintro ⟨m, hm, hk⟩
    exact Nat.lt_of_not_le fun hle => compareFrom_ne_truncated index hle m hm hk
  · intro hlt
    obtain ⟨earlier, entry, heq, -, -⟩ := compareFrom_of_length_lt index hlt
    rw [heq]
    exact ⟨_, List.mem_append_right earlier (List.mem_singleton.2 rfl), rfl⟩

/-- A comparison that finds nothing wrong has a retired entry for each golden one. -/
theorem length_le_of_compareFrom_eq_nil {settings : Settings} {index : Nat}
    {golden : List GoldenEntry} {retired : List ReconciledEntry}
    (h : compareFrom settings index golden retired = []) : golden.length ≤ retired.length := by
  refine Nat.le_of_not_lt fun hlt => ?_
  obtain ⟨earlier, entry, heq, -⟩ := compareFrom_of_length_lt index hlt
  rw [h] at heq
  simp at heq

end Lockstep
