import Lockstep.Proofs.Provenance
import Lockstep.Proofs.Truncation

/-!
# Bookkeeping

A run keeps three cursors and four counters beside its entries, and moves each of them at another point of
a step. A step may stop half-way: fetches were skipped and a commit was spliced in, and then a stream has
run out. The books balance nevertheless (`Balanced`): what a cursor or a counter says can be read off
the entries, at every end of a run (`cursors_and_stats_reconcile`).

The one exception is the counter of supplied commits, which is not among them.
-/

namespace Lockstep

/-- The entry shows a commit of the device that may have been brought forward. -/
def ReconciledEntry.isReorderable (entry : ReconciledEntry) : Bool :=
  entry.observesCommit && (entry.instr.category == .load || entry.instr.category == .registerOp)

/-- What a run has taken from the streams and what it has counted is what its entries show. -/
structure Balanced (p : Progress) (r : Reconciliation) : Prop where
  fetched : r.entries.map (·.toFetch) <+: p.fetches.pending
  fetches : r.cursors.fetches = p.fetches.taken + r.entries.length
  commits : r.cursors.commits = p.commits.taken + r.entries.countP (·.targetReg.isSome)
  accesses : r.cursors.accesses = p.accesses.taken + r.entries.countP (·.memAddr.isSome)
  speculative : r.entries.countP (·.speculativeFetch) =
    r.stats.speculativeFetches + r.stats.unknownInstructions
  reordered : r.stats.reorderedCommits ≤ r.entries.countP (·.isReorderable)

namespace Reconciliation

variable {settings : Settings} {golden : GoldenEntry} {fetch : Fetch} {p q : Progress}
  {skipped later : List Fetch} {entry : ReconciledEntry} {stats : Stats} {r : Reconciliation}

/-! ## One golden entry -/

theorem Serves.commits_taken (h : Serves settings golden fetch p entry stats q) :
    q.commits.taken = p.commits.taken + if entry.targetReg.isSome then 1 else 0 := by
  cases h with
  | supplied | observed | stored | silent | unknown => rfl

theorem Serves.accesses_taken (h : Serves settings golden fetch p entry stats q) :
    q.accesses.taken = p.accesses.taken + if entry.memAddr.isSome then 1 else 0 := by
  cases h with
  | supplied | observed | stored | silent | unknown => rfl

theorem Serves.unknownInstructions_eq (h : Serves settings golden fetch p entry stats q) :
    stats.unknownInstructions = if entry.speculativeFetch then 1 else 0 := by
  cases h with
  | supplied | observed | stored | silent | unknown => rfl

/-- Only a commit that is looked for can be brought forward. -/
theorem Serves.reorderedCommits_le (h : Serves settings golden fetch p entry stats q) :
    stats.reorderedCommits ≤ if entry.isReorderable then 1 else 0 := by
  cases h with
  | supplied | stored | silent | unknown => exact Nat.zero_le _
  | @observed mayReorder commit later demand fresh front =>
      obtain ⟨-, rfl, hcat⟩ | ⟨-, rfl, -⟩ := Instruction.demand_eq_commit_iff.1 demand
      · have hreorderable : ReconciledEntry.isReorderable
            { toFetch := fetch, toEffect := .ofWrite commit } = true := by
          unfold ReconciledEntry.isReorderable
          rcases hcat with hc | hc
          · simp [hc, ReconciledEntry.observesCommit, Effect.ofWrite]
          · simp [hc, ReconciledEntry.observesCommit, Effect.ofWrite]
        rw [hreorderable]
        show (if _ then 1 else 0) ≤ 1
        split <;> omega
      · -- A jump expects nothing, so it brings nothing forward.
        exact Nat.zero_le _

theorem countP_speculativeFetch (skipped : List Fetch) :
    (skipped.map speculative).countP (·.speculativeFetch) = skipped.length := by
  rw [List.countP_map]
  exact List.countP_eq_length.2 fun _ _ => rfl

theorem Stops.pending_eq {stream : Stream} (h : Stops golden p stream skipped later) :
    p.fetches.pending = skipped ++ later := by
  cases h with
  | fetches habsent => exact (List.append_nil _).symm
  | commits aligns | accesses aligns => exact aligns.pending_eq

/-! ## Whole runs -/

/-- Where a stream runs out, what was skipped is in the books and nothing else. -/
theorem Stops.balanced {stream : Stream} (h : Stops golden p stream skipped later)
    (outcome : Outcome) (synthesizedCommits : Nat) :
    Balanced p {
      entries := skipped.map speculative
      outcome
      cursors := { p.cursors with fetches := p.fetches.taken + skipped.length }
      stats := { speculativeFetches := skipped.length, synthesizedCommits } } where
  fetched := by
    rw [map_toFetch_speculative, h.pending_eq]
    exact List.prefix_append skipped later
  fetches := by rw [List.length_map]
  commits := by
    rw [countP_speculative fun _ => rfl]
    rfl
  accesses := by
    rw [countP_speculative fun _ => rfl]
    rfl
  speculative := countP_speculativeFetch skipped
  reordered := Nat.zero_le _

/-- An entry that is served goes into the books with the fetches that were skipped before it. -/
theorem Serves.balanced (aligns : Aligns golden p.fetches.pending skipped fetch later)
    (serves : Serves settings golden fetch p entry stats q)
    (h : Balanced
      { q with fetches := { taken := p.fetches.taken + skipped.length + 1, pending := later } } r) :
    Balanced p { r with
      entries := skipped.map speculative ++ entry :: r.entries
      stats := { stats with speculativeFetches := skipped.length } + r.stats } where
  fetched := by
    rw [List.map_append, map_toFetch_speculative, List.map_cons, serves.toFetch_eq,
      aligns.pending_eq, List.prefix_append_right_inj, List.prefix_cons_inj]
    exact h.fetched
  fetches := by
    have hlater := h.fetches
    simp only [List.length_append, List.length_map, List.length_cons] at hlater ⊢
    omega
  commits := by
    rw [countP_skipped fun _ => rfl, ← Nat.add_assoc, ← serves.commits_taken]
    exact h.commits
  accesses := by
    rw [countP_skipped fun _ => rfl, ← Nat.add_assoc, ← serves.accesses_taken]
    exact h.accesses
  speculative := by
    have hlater := h.speculative
    have hnow := serves.unknownInstructions_eq
    show _ = skipped.length + r.stats.speculativeFetches +
      (stats.unknownInstructions + r.stats.unknownInstructions)
    rw [List.countP_append, countP_speculativeFetch, List.countP_cons, ← hnow, hlater]
    omega
  reordered := by
    rw [countP_skipped fun _ => rfl]
    exact Nat.add_le_add serves.reorderedCommits_le h.reordered

/-- **The books balance** at every end of a run. -/
theorem Run.balanced {index : Nat} {goldens : List GoldenEntry}
    (h : Run settings index goldens p r) : Balanced p r := by
  induction h with
  | finished => exact ⟨List.nil_prefix, rfl, rfl, rfl, rfl, Nat.le_refl _⟩
  | stopped stops => exact stops.balanced _ _
  | served aligns serves run ih => exact serves.balanced aligns ih

end Reconciliation

/-- **The cursors and counters of a run agree with its entries**, wherever it ends. The fetches are those
of the entries, one by one; the commits and accesses taken are the entries with such an effect. An entry is
marked as speculative exactly when its fetch was counted as skipped or as unknown, and what is not skipped
are the golden entries that the run got through. A commit brought forward shows in an entry of a load or of
arithmetic. -/
theorem cursors_and_stats_reconcile (golden : List GoldenEntry) (trace : DeviceTrace)
    (settings : Settings) :
    let r := reconcile golden trace settings
    r.cursors.fetches ≤ trace.fetches.length ∧
    r.entries.map (·.toFetch) = trace.fetches.take r.cursors.fetches ∧
    r.cursors.commits = r.entries.countP (·.targetReg.isSome) ∧
    r.cursors.accesses = r.entries.countP (·.memAddr.isSome) ∧
    r.entries.countP (·.speculativeFetch) =
      r.stats.speculativeFetches + r.stats.unknownInstructions ∧
    r.entries.length = r.stats.speculativeFetches + r.outcome.reached golden.length ∧
    r.stats.reorderedCommits ≤ r.entries.countP (·.isReorderable) := by
  intro r
  have hbalanced := (run_reconcile golden trace settings).balanced
  have hfetches : r.cursors.fetches = r.entries.length := by
    rw [hbalanced.fetches]
    exact Nat.zero_add _
  have hlength : (r.entries.map (·.toFetch)).length = r.cursors.fetches := by
    rw [List.length_map, hfetches]
  have htake : r.entries.map (·.toFetch) = trace.fetches.take r.cursors.fetches := by
    rw [← hlength]
    exact List.prefix_iff_eq_take.1 hbalanced.fetched
  have hreached : r.entries.length =
      r.stats.speculativeFetches + r.outcome.reached golden.length := by
    have hretired : (retiredEntries r.entries).length + r.stats.unknownInstructions =
        r.outcome.reached golden.length := length_retiredEntries_reconcile golden trace settings
    have hsplit : r.entries.length =
        r.entries.countP (·.speculativeFetch) + (retiredEntries r.entries).length := by
      rw [List.length_eq_countP_add_countP (·.speculativeFetch), List.countP_eq_length_filter,
        List.countP_eq_length_filter, retiredEntries]
      simp
    rw [hsplit, hbalanced.speculative, ← hretired, Nat.add_assoc,
      Nat.add_comm r.stats.unknownInstructions]
  refine ⟨?_, htake, ?_, ?_, hbalanced.speculative, hreached, hbalanced.reordered⟩
  · rw [← hlength]
    exact hbalanced.fetched.length_le
  · rw [hbalanced.commits]
    exact Nat.zero_add _
  · rw [hbalanced.accesses]
    exact Nat.zero_add _

end Lockstep
