import Lockstep.Batch
import Lockstep.Proofs.Comparison
import Lockstep.Proofs.Run

/-!
# Truncated comparisons and early ends

The verdict on a program looks at the mismatches only, never at the outcome of the reconciliation. It
is right nevertheless: a run that ends early, or that meets a word it does not recognize, retires fewer
entries than there are golden ones (`Run.length_retiredEntries`), so the comparison is truncated and
there is a mismatch.
-/

namespace Lockstep

/-- How many golden entries a run got through, where a complete one gets to `last`. -/
def Outcome.reached (last : Nat) : Outcome → Nat
  | .complete => last
  | .exhausted _ index => index

namespace Reconciliation

/-- A golden entry that is served retires an entry, or is counted as unknown. -/
theorem Serves.length_retired {settings : Settings} {golden : GoldenEntry} {fetch : Fetch}
    {p q : Progress} {entry : ReconciledEntry} {stats : Stats}
    (h : Serves settings golden fetch p entry stats q) :
    (retiredEntries [entry]).length + stats.unknownInstructions = 1 := by
  cases h with
  | supplied => rfl
  | observed => rfl
  | stored => rfl
  | silent => rfl
  | unknown => rfl

/-- **The counting invariant**: the golden entries that a run got through are those that retired and
those with an unknown word. -/
theorem Run.length_retiredEntries {settings : Settings} {index : Nat} {golden : List GoldenEntry}
    {p : Progress} {r : Reconciliation} (h : Run settings index golden p r) :
    index + (retiredEntries r.entries).length + r.stats.unknownInstructions =
      r.outcome.reached (index + golden.length) := by
  induction h with
  | finished => rfl
  | @stopped index golden rest p stream skipped later stops =>
      -- What was skipped before a stream ran out is speculative, and so it is not counted.
      simp only [retiredEntries_speculative]
      rfl
  | @served index golden rest p q skipped later fetch entry stats r aligns serves run ih =>
      have hone := serves.length_retired
      have hlen : (retiredEntries (skipped.map speculative ++ entry :: r.entries)).length =
          (retiredEntries [entry]).length + (retiredEntries r.entries).length := by
        rw [retiredEntries_skipped, List.length_append]
      show index + (retiredEntries (skipped.map speculative ++ entry :: r.entries)).length +
        (stats.unknownInstructions + r.stats.unknownInstructions) =
          r.outcome.reached (index + (golden :: rest).length)
      have hlast : index + (golden :: rest).length = index + 1 + rest.length := by
        rw [List.length_cons]
        omega
      rw [hlen, hlast, ← ih]
      omega

/-- An early end comes at a golden entry of the trace. -/
theorem Run.reached_lt {settings : Settings} {index : Nat} {golden : List GoldenEntry}
    {p : Progress} {r : Reconciliation} (h : Run settings index golden p r) {stream : Stream}
    {stop : Nat} (ho : r.outcome = .exhausted stream stop) : stop < index + golden.length := by
  induction h with
  | finished => cases ho
  | stopped stops =>
      cases ho
      simp
  | served aligns serves run ih =>
      have := ih ho
      rw [List.length_cons]
      omega

end Reconciliation

theorem length_retiredEntries_reconcile (golden : List GoldenEntry) (trace : DeviceTrace)
    (settings : Settings) :
    (retiredEntries (reconcile golden trace settings).entries).length +
        (reconcile golden trace settings).stats.unknownInstructions =
      (reconcile golden trace settings).outcome.reached golden.length := by
  have hcount := (run_reconcile golden trace settings).length_retiredEntries
  rw [Nat.zero_add, Nat.zero_add] at hcount
  exact hcount

/-- Fewer entries retire than there are golden ones exactly when the run ends early or meets an unknown
word. -/
theorem length_retiredEntries_lt_iff (golden : List GoldenEntry) (trace : DeviceTrace)
    (settings : Settings) :
    (retiredEntries (reconcile golden trace settings).entries).length < golden.length ↔
      (∃ stream index, (reconcile golden trace settings).outcome = .exhausted stream index) ∨
        0 < (reconcile golden trace settings).stats.unknownInstructions := by
  have hrun := run_reconcile golden trace settings
  have hcount := length_retiredEntries_reconcile golden trace settings
  cases ho : (reconcile golden trace settings).outcome with
  | complete =>
      have hno : ¬ ∃ stream index, Outcome.complete = .exhausted stream index := nofun
      rw [ho, Outcome.reached] at hcount
      rw [or_iff_right hno]
      omega
  | exhausted stream index =>
      have hlt := hrun.reached_lt ho
      rw [ho, Outcome.reached] at hcount
      exact iff_of_true (by omega) (.inl ⟨stream, index, rfl⟩)

/-- Where nothing is wrong, the run is complete and every golden entry retired. -/
theorem complete_of_mismatches_eq_nil {golden : List GoldenEntry} {trace : DeviceTrace}
    {settings : Settings} (h : (verify golden trace settings).mismatches = []) :
    (reconcile golden trace settings).outcome = .complete ∧
      (reconcile golden trace settings).stats.unknownInstructions = 0 ∧
      (retiredEntries (reconcile golden trace settings).entries).length = golden.length := by
  have hle : golden.length ≤ _ := length_le_of_compareFrom_eq_nil h
  have hcount := length_retiredEntries_reconcile golden trace settings
  cases ho : (reconcile golden trace settings).outcome with
  | complete =>
      rw [ho, Outcome.reached] at hcount
      exact ⟨rfl, by omega, by omega⟩
  | exhausted stream index =>
      have hlt := (length_retiredEntries_lt_iff golden trace settings).2 (.inl ⟨stream, index, ho⟩)
      exact absurd hlt (Nat.not_lt_of_le hle)

/-- **A pass is never due to a short run.** A mismatch of kind `truncated` is there exactly when fewer
entries retire than there are golden ones, and exactly when the run ended early or met an unknown word.
It is the last mismatch and the only one of its kind. A report of these mismatches that passes is
therefore the report of a complete run. -/
theorem truncated_iff_retired_lt (golden : List GoldenEntry) (trace : DeviceTrace)
    (settings : Settings) :
    let v := verify golden trace settings
    let retired := (retiredEntries v.reconciliation.entries).length
    ((∃ m ∈ v.mismatches, m.kind = .truncated) ↔ retired < golden.length) ∧
    (retired < golden.length ↔
      (∃ stream index, v.reconciliation.outcome = .exhausted stream index) ∨
        0 < v.reconciliation.stats.unknownInstructions) ∧
    (retired < golden.length → ∃ earlier entry,
      v.mismatches = earlier ++ [{
        index := retired
        kind := .truncated
        golden := entry.normalized settings
        device := .empty }] ∧
      golden[retired]? = some entry ∧
      ∀ m ∈ earlier, m.kind ≠ .truncated) ∧
    ∀ report : ProgramReport, report.mismatches = v.mismatches → report.passed = true →
      v.reconciliation.outcome = .complete ∧
      v.reconciliation.stats.unknownInstructions = 0 ∧
      retired = golden.length := by
  intro v retired
  refine ⟨exists_truncated_iff 0, length_retiredEntries_lt_iff golden trace settings, ?_, ?_⟩
  · intro hlt
    obtain ⟨earlier, entry, heq, hentry, hne⟩ := compareFrom_of_length_lt 0 hlt
    rw [Nat.zero_add] at heq
    exact ⟨earlier, entry, heq, hentry, hne⟩
  · intro report hm hp
    exact complete_of_mismatches_eq_nil (hm ▸ List.isEmpty_iff.1 hp)

end Lockstep
