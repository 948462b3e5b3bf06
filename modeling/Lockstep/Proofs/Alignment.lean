import Lockstep.Proofs.Run

/-!
# Greedy alignment

A run gives a golden entry the first fetch from its program counter and never goes back on that, also where a
device has fetched from there on a wrong path before. Nothing is lost by it: what can follow a later
fetch from the same place can follow the first one too (`cons_sublist_append_cons_iff`). So the run
finds a fetch for as many golden entries as anybody could (`alignment_optimal`).
-/

namespace Lockstep

/-- Some of the fetches, in order, are from the program counters of the golden entries. -/
def Alignable (golden : List GoldenEntry) (fetches : List Fetch) : Prop :=
  (golden.map (·.pc)).Sublist (fetches.map (·.pc))

/-- **The exchange argument.** An element of a subsequence can be taken where it is met first. -/
theorem cons_sublist_append_cons_iff {α : Type} {x : α} {skipped : List α} (h : x ∉ skipped)
    (xs later : List α) :
    (x :: xs).Sublist (skipped ++ x :: later) ↔ xs.Sublist later := by
  induction skipped with
  | nil => exact List.cons_sublist_cons
  | cons first skipped ih =>
      have hne : x ≠ first := List.ne_of_not_mem_cons h
      rw [List.cons_append, ← ih (List.not_mem_of_not_mem_cons h)]
      constructor
      · intro hsub
        rcases List.sublist_cons_iff.1 hsub with hlater | ⟨rest, heq, -⟩
        · exact hlater
        · -- The first fetch cannot be the one of `x`.
          exact absurd (List.cons.inj heq).1 hne
      · exact List.Sublist.cons first

theorem alignable_nil (fetches : List Fetch) : Alignable [] fetches :=
  List.nil_sublist _

/-- A golden entry can be aligned alone exactly when one of the fetches is from its program counter. -/
theorem alignable_singleton_iff {golden : GoldenEntry} {fetches : List Fetch} :
    Alignable [golden] fetches ↔ ∃ f ∈ fetches, f.pc = golden.pc := by
  unfold Alignable
  simp only [List.map_cons, List.map_nil, List.singleton_sublist, List.mem_map]

namespace Reconciliation

variable {settings : Settings} {golden : GoldenEntry} {p : Progress} {skipped later : List Fetch}
  {fetch : Fetch}

/-- Behind the first fetch that fits, the golden entries after this one have what they can have. -/
theorem Aligns.alignable_cons_iff {pending : List Fetch}
    (h : Aligns golden pending skipped fetch later) (rest : List GoldenEntry) :
    Alignable (golden :: rest) pending ↔ Alignable rest later := by
  have habsent : golden.pc ∉ skipped.map (·.pc) := by
    intro hmem
    obtain ⟨f, hf, hpc⟩ := List.mem_map.1 hmem
    exact h.skipped_ne f hf hpc
  unfold Alignable
  rw [h.pending_eq, List.map_append, List.map_cons, List.map_cons, h.pc_eq]
  exact cons_sublist_append_cons_iff habsent _ _

/-- Where a run stops, the awaited fetch is still to come, unless it is the fetches that ran out. -/
theorem Stops.alignable_iff {stream : Stream} (h : Stops golden p stream skipped later) :
    Alignable [golden] p.fetches.pending ↔ stream ≠ .fetches := by
  cases h with
  | fetches habsent =>
      rw [alignable_singleton_iff]
      refine iff_of_false ?_ (fun hne => hne rfl)
      rintro ⟨f, hf, hpc⟩
      exact habsent f hf hpc
  | commits aligns =>
      exact iff_of_true ((aligns.alignable_cons_iff []).2 (alignable_nil _)) nofun
  | accesses aligns =>
      exact iff_of_true ((aligns.alignable_cons_iff []).2 (alignable_nil _)) nofun

variable {index : Nat} {goldens : List GoldenEntry} {r : Reconciliation}

theorem Run.alignable_of_complete (h : Run settings index goldens p r)
    (ho : r.outcome = .complete) : Alignable goldens p.fetches.pending := by
  induction h with
  | finished => exact alignable_nil _
  | stopped stops => cases ho
  | served aligns serves run ih =>
      rw [aligns.alignable_cons_iff]
      exact ih ho

/-- **No choice of fetches gets further** than a run that has run out of them. One that has run out of
something else has found the fetch of the golden entry where it stops. -/
theorem Run.alignable_of_exhausted (h : Run settings index goldens p r) {stream : Stream}
    {stop : Nat} (ho : r.outcome = .exhausted stream stop) :
    ∃ reached, stop = index + reached ∧ reached < goldens.length ∧
      Alignable (goldens.take reached) p.fetches.pending ∧
      (Alignable (goldens.take (reached + 1)) p.fetches.pending ↔ stream ≠ .fetches) := by
  induction h with
  | finished => cases ho
  | stopped stops =>
      cases ho
      exact ⟨0, rfl, Nat.succ_pos _, alignable_nil _, stops.alignable_iff⟩
  | served aligns serves run ih =>
      obtain ⟨reached, hstop, hlt, hupto, hnext⟩ := ih ho
      refine ⟨reached + 1, ?_, Nat.succ_lt_succ hlt, ?_, ?_⟩
      · rw [hstop]
        omega
      · rw [List.take_succ_cons, aligns.alignable_cons_iff]
        exact hupto
      · rw [List.take_succ_cons, aligns.alignable_cons_iff]
        exact hnext

end Reconciliation

theorem Alignable.take {golden : List GoldenEntry} {fetches : List Fetch}
    (h : Alignable golden fetches) (n : Nat) : Alignable (golden.take n) fetches :=
  ((List.take_sublist n golden).map _).trans h

/-- **Taking the first fetch that fits is optimal.**

* If the run is complete, all golden entries can be aligned.
* If it stops at a golden entry, those before it can be aligned; and those up to it cannot, exactly if it
  is the fetches that have run out.
* So as long as the golden entries can be aligned at all, the run never ends for want of a fetch. -/
theorem alignment_optimal (golden : List GoldenEntry) (trace : DeviceTrace) (settings : Settings) :
    let r := reconcile golden trace settings
    (r.outcome = .complete → Alignable golden trace.fetches) ∧
    (∀ stream i, r.outcome = .exhausted stream i →
      i < golden.length ∧ Alignable (golden.take i) trace.fetches ∧
        (Alignable (golden.take (i + 1)) trace.fetches ↔ stream ≠ .fetches)) ∧
    (Alignable golden trace.fetches → ∀ i, r.outcome ≠ .exhausted .fetches i) := by
  intro r
  have hrun := run_reconcile golden trace settings
  have hexhausted : ∀ stream i, r.outcome = .exhausted stream i →
      i < golden.length ∧ Alignable (golden.take i) trace.fetches ∧
        (Alignable (golden.take (i + 1)) trace.fetches ↔ stream ≠ .fetches) := by
    intro stream i ho
    obtain ⟨reached, hstop, hlt, hupto, hnext⟩ := hrun.alignable_of_exhausted ho
    rw [Nat.zero_add] at hstop
    subst hstop
    exact ⟨hlt, hupto, hnext⟩
  refine ⟨hrun.alignable_of_complete, hexhausted, ?_⟩
  intro halignable i ho
  obtain ⟨-, -, hnext⟩ := hexhausted .fetches i ho
  exact hnext.1 (halignable.take (i + 1)) rfl

/-- The first fetch is on a wrong path, which the device leaves to come back. It is taken all the same, and
the one that was meant is skipped; the second golden entry finds its fetch behind either. -/
example :
    let golden : List GoldenEntry := [{ pc := 0x100, instr := 0x0f }, { pc := 0x104, instr := 0x0f }]
    let trace : DeviceTrace := {
      fetches := [⟨0x100, 0x0f⟩, ⟨0x200, 0x0f⟩, ⟨0x100, 0x0f⟩, ⟨0x104, 0x0f⟩] }
    let r := reconcile golden trace {}
    r.outcome = .complete ∧ r.entries.map (·.speculativeFetch) = [false, true, true, false] := by
  decide

end Lockstep
