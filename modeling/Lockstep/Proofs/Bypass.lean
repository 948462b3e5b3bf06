import Lockstep.Proofs.Recovery
import Lockstep.Proofs.Soundness

/-!
# Commits that are passed over

A device may show a commit that no golden entry asks for. Where the golden write stands behind it in the
window, the exchange moves it on to a later place instead of taking it, and it can be moved on at every
step until the golden trace has ended: nothing looks at the commits that are left over. So a pass does
not say that the device showed no other commits (`spurious_commit_passes`).

What it says is `accepted_of_mismatches_eq_nil`: the commits that were accepted are the golden writes that
had to be shown, and fewer than a window of others stand among them.
-/

namespace Lockstep

/-- What is in a longer prefix is in a prefix that holds little else. -/
theorem exists_bypassed {α : Type} {taken pending : List α} {slack : Nat}
    (h : taken.Subperm (pending.take (taken.length + slack))) :
    ∃ bypassed, bypassed.length ≤ slack ∧
      (taken ++ bypassed).Perm (pending.take (taken.length + bypassed.length)) := by
  obtain ⟨same, hsame, hsublist⟩ := h
  obtain ⟨bypassed, hbypassed⟩ := hsublist.exists_perm_append
  have hperm : (taken ++ bypassed).Perm (pending.take (taken.length + slack)) :=
    (hsame.symm.append_right bypassed).trans hbypassed.symm
  have hlength := hperm.length_eq
  rw [List.length_append, List.length_take] at hlength
  -- The longer prefix may reach beyond the end; it is cut off there.
  have hcut : pending.take (taken.length + bypassed.length) =
      pending.take (taken.length + slack) := by
    rw [List.take_eq_take_iff]
    omega
  refine ⟨bypassed, by omega, ?_⟩
  rw [hcut]
  exact hperm

namespace Reconciliation

variable {settings : Settings}

/-- Where nothing is wrong, the commits that are shown are the golden writes that were awaited. -/
theorem Run.observedCommits_eq {index : Nat} {golden : List GoldenEntry} {p : Progress}
    {r : Reconciliation} (h : Run settings index golden p r) (ho : r.outcome = .complete)
    (hknown : r.stats.unknownInstructions = 0)
    (hsame : compareFrom settings index golden (retiredEntries r.entries) = []) :
    observedCommits r.entries = (awaitedWrites p.shadow golden).reduceOption := by
  induction h with
  | finished => rfl
  | stopped stops => cases ho
  | @served index golden rest p q skipped later fetch entry stats r aligns serves run ih =>
      obtain ⟨hnow, hlater⟩ := Nat.add_eq_zero_iff.1
        (show stats.unknownInstructions + r.stats.unknownInstructions = 0 from hknown)
      obtain ⟨hrecord, hsame⟩ := (compareFrom_skipped_eq_nil_iff (serves.retires hnow)).1 hsame
      obtain ⟨hawaited, hshadow⟩ := serves.awaited hrecord hnow
      show observedCommits (skipped.map speculative ++ entry :: r.entries) = _
      rw [observedCommits_skipped, ih ho hlater hsame, awaitedWrites, hawaited, ← hshadow]
      cases entry.observedCommit? with
      | none => rfl
      | some commit => rfl

end Reconciliation

/-- A commit of `x9`, which the golden trace never writes, stands in front of the one that is accepted, and
the verification finds nothing wrong. -/
theorem spurious_commit_passes :
    let golden : List GoldenEntry := [
      { pc := 0x100, instr := 0x00500593, targetReg := some 11, regVal := some 5 }]
    let trace : DeviceTrace := {
      fetches := [⟨0x100, 0x00500593⟩]
      commits := [⟨9, 7⟩, ⟨11, 5⟩] }
    let settings : Settings := {}
    let r := (verify golden trace settings).reconciliation
    let observed := r.entries.filter (·.observesCommit)
    (verify golden trace settings).mismatches = [] ∧
      ¬ (observed.map (·.toEffect)).Perm ((trace.commits.take observed.length).map .ofWrite) := by
  decide

/-- **A pass bounds what is passed over.** If the verification finds nothing wrong, then the register
effects that were not supplied are, in order, the golden writes that do not repeat. With fewer than a
window of other commits they make up the first commits of the device; with none, if nothing was brought
forward. -/
theorem accepted_of_mismatches_eq_nil (golden : List GoldenEntry) (trace : DeviceTrace)
    (settings : Settings) (h : (verify golden trace settings).mismatches = []) :
    let r := (verify golden trace settings).reconciliation
    let observed := r.entries.filter (·.observesCommit)
    let accepted := (awaitedWrites (.filled settings.shadowResetValue) golden).reduceOption
    observed.map (·.toEffect) = accepted.map .ofWrite ∧
    (∃ bypassed : List RegisterWrite, bypassed.length ≤ max settings.reorderWindow 1 - 1 ∧
      (accepted ++ bypassed).Perm (trace.commits.take (observed.length + bypassed.length))) ∧
    (r.stats.reorderedCommits = 0 → accepted = trace.commits.take observed.length) := by
  intro r observed accepted
  obtain ⟨hcomplete, hknown, -⟩ := complete_of_mismatches_eq_nil h
  have hrun := run_reconcile golden trace settings
  have haccepted : observedCommits r.entries = accepted :=
    hrun.observedCommits_eq hcomplete hknown h
  have heffects : observed.map (·.toEffect) = accepted.map .ofWrite := by
    rw [← haccepted]
    exact hrun.toEffect_observed
  have hlength : observed.length = accepted.length := by
    have hlen := congrArg List.length heffects
    rwa [List.length_map, List.length_map] at hlen
  have hdrawn : Drawn _ accepted trace.commits := haccepted ▸ hrun.drawn
  rw [hlength]
  refine ⟨heffects, ?_, ?_⟩
  · have hwithin := hdrawn.within accepted.length
    rw [List.take_length] at hwithin
    exact exists_bypassed hwithin
  · intro hnone
    have hprefix : accepted <+: trace.commits := haccepted ▸ hrun.observedCommits_isPrefix hnone
    exact List.prefix_iff_eq_take.1 hprefix

/-- The spurious commit is carried along past two golden writes, of which the first retired last. -/
theorem accepted_past_spurious_commit :
    let golden : List GoldenEntry := [
      { pc := 0x100, instr := 0x00500593, targetReg := some 11, regVal := some 5 },
      { pc := 0x104, instr := 0x00500593, targetReg := some 11, regVal := some 5 },
      { pc := 0x108, instr := 0x00700613, targetReg := some 12, regVal := some 7 }]
    let trace : DeviceTrace := {
      fetches := golden.map (·.toFetch)
      commits := [⟨9, 7⟩, ⟨12, 7⟩, ⟨11, 5⟩] }
    let settings : Settings := { reorderWindow := 3 }
    let r := (verify golden trace settings).reconciliation
    let observed := r.entries.filter (·.observesCommit)
    (verify golden trace settings).mismatches = [] ∧
      observed.map (·.toEffect) = [.ofWrite ⟨11, 5⟩, .ofWrite ⟨12, 7⟩] ∧
      ∃ bypassed : List RegisterWrite, bypassed.length ≤ 2 ∧
        (([⟨11, 5⟩, ⟨12, 7⟩] : List RegisterWrite) ++ bypassed).Perm
          (trace.commits.take (observed.length + bypassed.length)) := by
  intro golden trace settings r observed
  have h : (verify golden trace settings).mismatches = [] := by decide
  have haccepted : (awaitedWrites (.filled settings.shadowResetValue) golden).reduceOption =
      [⟨11, 5⟩, ⟨12, 7⟩] := by decide
  obtain ⟨heffects, hbypassed, -⟩ := accepted_of_mismatches_eq_nil golden trace settings h
  rw [haccepted] at heffects hbypassed
  exact ⟨h, heffects, hbypassed⟩

end Lockstep
