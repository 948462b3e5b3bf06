import Lockstep.Proofs.Provenance
import Lockstep.Proofs.Truncation

/-!
# What a pass implies

Where a verification finds nothing wrong, every golden entry is accounted for. The induction goes from the
end of the run to its start: if the streams that a golden entry leaves behind cover the entries after it,
then the streams it was served from cover it as well (`Serves.covers`). Bringing a commit forward only
rearranges the pending ones, so it does not matter to which place it moves the others.
-/

namespace Lockstep

/-! ## Records of served entries -/

theorem GoldenEntry.of_normalized_eq {settings : Settings} {golden : GoldenEntry}
    {entry : ReconciledEntry} (h : golden.normalized settings = entry.record) :
    golden.toFetch = entry.toFetch ∧ (golden.normalized settings).toEffect = entry.toEffect := by
  have hpc : golden.pc = entry.pc := Option.some.inj (congrArg Record.pc h)
  have hinstr : golden.instr = entry.instr := Option.some.inj (congrArg Record.instr h)
  refine ⟨?_, congrArg Record.toEffect h⟩
  show Fetch.mk golden.pc golden.instr = Fetch.mk entry.pc entry.instr
  rw [hpc, hinstr]

/-- Normalization leaves the register and the values alone. -/
theorem GoldenEntry.fields_of_toEffect_eq {settings : Settings} {golden : GoldenEntry}
    {effect : Effect} (h : (golden.normalized settings).toEffect = effect) :
    golden.targetReg = effect.targetReg ∧ golden.regVal = effect.regVal ∧
      golden.memVal = effect.memVal := by
  subst h
  exact ⟨rfl, rfl, rfl⟩

theorem GoldenEntry.registerWrite?_of_ofWrite {settings : Settings} {golden : GoldenEntry}
    {write : RegisterWrite} (h : (golden.normalized settings).toEffect = .ofWrite write) :
    golden.registerWrite? = some write := by
  obtain ⟨hr, hv, -⟩ := fields_of_toEffect_eq h
  exact registerWrite?_eq_some_iff.2 ⟨hr, hv⟩

/-- A store that is equal to an access is shown by it. -/
theorem GoldenEntry.exists_of_ofStore {settings : Settings} {golden : GoldenEntry}
    {shown value : UInt32} (hs : golden.instr.isStore = true)
    (h : (golden.normalized settings).toEffect = .ofStore shown value) :
    golden.WritesNoRegister ∧ golden.memVal = some value ∧
      ∃ address, golden.memAddr = some address ∧ shown = settings.shownAddress address := by
  obtain ⟨hr, hx, hv⟩ := fields_of_toEffect_eq h
  refine ⟨⟨hr, hx⟩, hv, ?_⟩
  rw [normalized_of_isStore hs (by rw [hv]; rfl)] at h
  have ha : golden.memAddr.map settings.shownAddress = some shown := congrArg Effect.memAddr h
  obtain ⟨address, haddress, rfl⟩ := Option.map_eq_some_iff.1 ha
  exact ⟨address, haddress, rfl⟩

namespace Reconciliation

variable {settings : Settings} {golden : GoldenEntry} {rest : List GoldenEntry} {fetch : Fetch}
  {p q : Progress} {entry : ReconciledEntry} {stats : Stats}

theorem promoted_perm (window : Nat) (expected : Option RegisterWrite)
    (pending : List RegisterWrite) : (promoted window expected pending).Perm pending := by
  cases expected with
  | none => exact .refl pending
  | some write => exact Lookahead.promote_perm write window pending

theorem Serves.retires (h : Serves settings golden fetch p entry stats q)
    (hknown : stats.unknownInstructions = 0) : entry.speculativeFetch = false := by
  cases h with
  | supplied | observed | stored | silent => rfl
  | unknown => cases hknown

/-- The pending streams hold what the golden entries to come have to show. -/
structure Covers (settings : Settings) (golden : List GoldenEntry) (p : Progress) : Prop where
  commits : (awaitedWrites p.shadow golden).reduceOption.Subperm p.commits.pending
  accesses : ShowsAccesses settings golden p.accesses.pending
  effects : ∀ entry ∈ golden, entry.Shows settings entry.instr.demand

/-- An entry that agrees with its golden one shows the write that was awaited, if one was. -/
theorem Serves.awaited (h : Serves settings golden fetch p entry stats q)
    (hrecord : golden.normalized settings = entry.record) (hknown : stats.unknownInstructions = 0) :
    awaitedWrite? p.shadow golden = entry.observedCommit? ∧ q.shadow = p.shadow.follow golden := by
  obtain ⟨-, heffect⟩ := GoldenEntry.of_normalized_eq hrecord
  -- Without a register in its effect, the entry shows nothing and the golden one awaits nothing.
  have hsilent : entry.targetReg = none → entry.regVal = none → q.shadow = p.shadow →
      awaitedWrite? p.shadow golden = none ∧ q.shadow = p.shadow.follow golden := by
    intro hr hx hshadow
    obtain ⟨hreg, hval, -⟩ := GoldenEntry.fields_of_toEffect_eq heffect
    have hw := GoldenEntry.registerWrite?_eq_none ⟨hreg.trans hr, hval.trans hx⟩
    rw [awaitedWrite?, hw, RegisterFile.follow_of_none hw]
    exact ⟨rfl, hshadow⟩
  cases h with
  | supplied demand repeated =>
      exact ⟨awaitedWrite?_of_repeated repeated, (follow_of_repeated repeated).symm⟩
  | observed demand fresh front =>
      exact ⟨awaitedWrite?_of_fresh (GoldenEntry.registerWrite?_of_ofWrite heffect) fresh, rfl⟩
  | stored | silent => exact hsilent rfl rfl rfl
  | unknown => cases hknown

/-- **One step of the accounting.** -/
theorem Serves.covers (h : Serves settings golden fetch p entry stats q)
    (hrecord : golden.normalized settings = entry.record) (hknown : stats.unknownInstructions = 0)
    (hcov : Covers settings rest q) : Covers settings (golden :: rest) p := by
  have hcommits : (awaitedWrites p.shadow (golden :: rest)).reduceOption.Subperm p.commits.pending := by
    obtain ⟨hawaited, hshadow⟩ := h.awaited hrecord hknown
    rw [awaitedWrites, hawaited, ← hshadow]
    rcases h.leaves_or_takes with leaves | ⟨commit, takes⟩
    · rw [leaves.observed, List.reduceOption_cons_of_none, ← leaves.pending]
      exact hcov.commits
    · -- The commit that was taken is the golden write, whatever else was moved to get it there.
      obtain ⟨mayReorder, hfront⟩ := takes.front
      have hperm := promoted_perm settings.reorderWindow (expectedWrite? mayReorder golden)
        p.commits.pending
      rw [hfront] at hperm
      rw [takes.observed, List.reduceOption_cons_of_some]
      exact ((List.subperm_cons commit).2 hcov.commits).trans hperm.subperm
  obtain ⟨hfetch, heffect⟩ := GoldenEntry.of_normalized_eq hrecord
  rw [h.toFetch_eq] at hfetch
  subst hfetch
  cases h with
  | @supplied mayReorder write demand repeated =>
      have hstore := Instruction.isStore_eq_false_of_commit demand
      refine ⟨hcommits, ?_, List.forall_mem_cons.2 ⟨?_, hcov.effects⟩⟩
      · exact (ShowsAccesses.cons_iff_of_not_isStore hstore).2 hcov.accesses
      · rw [demand]
        exact ⟨write, GoldenEntry.registerWrite?_of_ofWrite heffect, heffect⟩
  | @observed mayReorder commit later demand fresh front =>
      have hstore := Instruction.isStore_eq_false_of_commit demand
      refine ⟨hcommits, ?_, List.forall_mem_cons.2 ⟨?_, hcov.effects⟩⟩
      · exact (ShowsAccesses.cons_iff_of_not_isStore hstore).2 hcov.accesses
      · rw [demand]
        exact ⟨commit, GoldenEntry.registerWrite?_of_ofWrite heffect, heffect⟩
  | @stored width access later demand front =>
      have hcat := Instruction.demand_eq_access_iff.1 demand
      have hstore := Instruction.isStore_of_category hcat
      obtain ⟨-, hv, address, ha, hshown⟩ := GoldenEntry.exists_of_ofStore hstore heffect
      refine ⟨hcommits, ?_, List.forall_mem_cons.2 ⟨?_, hcov.effects⟩⟩
      · refine (ShowsAccesses.cons_iff_of_isStore hstore).2 ⟨access, later, front, ?_, hcov.accesses⟩
        refine ⟨width, address, _, hcat, ha, hv, hshown, ?_⟩
        rw [ha, Option.getD_some]
      · rw [demand]
        refine ⟨address, _, ha, hv, ?_⟩
        rw [← hshown]
        exact heffect
  | silent demand =>
      have hstore := Instruction.isStore_eq_false_of_nothing demand
      refine ⟨hcommits, ?_, List.forall_mem_cons.2 ⟨?_, hcov.effects⟩⟩
      · exact (ShowsAccesses.cons_iff_of_not_isStore hstore).2 hcov.accesses
      · rw [demand]
        exact heffect
  | unknown => cases hknown

/-- **The accounting.** A complete run without unknown words, whose comparison finds nothing wrong, has
covered all of its golden entries. -/
theorem Run.covers {index : Nat} {golden : List GoldenEntry} {r : Reconciliation}
    (h : Run settings index golden p r) (ho : r.outcome = .complete)
    (hknown : r.stats.unknownInstructions = 0)
    (hsame : compareFrom settings index golden (retiredEntries r.entries) = []) :
    ShowsFetches golden p.fetches.pending ∧ Covers settings golden p := by
  induction h with
  | finished =>
      exact ⟨.done _, List.nil_subperm, nofun, nofun⟩
  | stopped stops => cases ho
  | @served index golden rest p q skipped later fetch entry stats r aligns serves run ih =>
      obtain ⟨hnow, hlater⟩ := Nat.add_eq_zero_iff.1
        (show stats.unknownInstructions + r.stats.unknownInstructions = 0 from hknown)
      -- The entry that was served retires, so it is the one beside the golden entry.
      obtain ⟨hrecord, hsame⟩ := (compareFrom_skipped_eq_nil_iff (serves.retires hnow)).1 hsame
      obtain ⟨hfetches, hcov⟩ := ih ho hlater hsame
      refine ⟨?_, serves.covers hrecord hnow ⟨hcov.commits, hcov.accesses, hcov.effects⟩⟩
      obtain ⟨hfetch, -⟩ := GoldenEntry.of_normalized_eq hrecord
      rw [serves.toFetch_eq] at hfetch
      rw [aligns.pending_eq, ← hfetch]
      exact .next aligns.skipped_ne hfetches

end Reconciliation

/-- An entry that neither writes a register nor is a store demands nothing. -/
theorem GoldenEntry.Shows.of_other {settings : Settings} {entry : GoldenEntry}
    (h : entry.Shows settings entry.instr.demand) (hw : entry.registerWrite? = none)
    (hs : entry.instr.isStore = false) : (entry.normalized settings).toEffect = .none := by
  cases hd : entry.instr.demand with
  | commit mayReorder =>
      rw [hd] at h
      obtain ⟨write, hsome, -⟩ := h
      rw [hw] at hsome
      cases hsome
  | access width =>
      have hstore := Instruction.isStore_of_category (Instruction.demand_eq_access_iff.1 hd)
      rw [hs] at hstore
      cases hstore
  | nothing =>
      rw [hd] at h
      exact h
  | unknown =>
      rw [hd] at h
      exact h.elim

/-- **Soundness of a pass.** If the verification finds nothing wrong, then every golden entry is
accounted for by what the device did. -/
theorem accounted_of_mismatches_eq_nil (golden : List GoldenEntry) (trace : DeviceTrace)
    (settings : Settings) (h : (verify golden trace settings).mismatches = []) :
    Accounted settings golden trace := by
  obtain ⟨hcomplete, hknown, -⟩ := complete_of_mismatches_eq_nil h
  obtain ⟨hfetches, hcov⟩ := (run_reconcile golden trace settings).covers hcomplete hknown h
  obtain ⟨position, hinj, hposition⟩ := exists_positions_of_subperm hcov.commits
  refine ⟨hfetches.exists_positions, ⟨position, ?_, ?_⟩, hcov.accesses, hcov.effects, ?_⟩
  · rintro i ⟨write, hi⟩ j ⟨other, hj⟩ heq
    exact hinj ⟨write, getElem?_awaitedWrites_eq_some_iff.2 hi⟩
      ⟨other, getElem?_awaitedWrites_eq_some_iff.2 hj⟩ heq
  · intro i write hi
    exact hposition i write (getElem?_awaitedWrites_eq_some_iff.2 hi)
  · intro entry he hw hs
    exact (hcov.effects entry he).of_other hw hs

/-- Two commits that retired the other way round, a repeated write that the device does not show, and a
half-word store that it shows up to its word. -/
theorem accounted_of_swapped_commits :
    let golden : List GoldenEntry := [
      { pc := 0x100, instr := 0x00500593, targetReg := some 11, regVal := some 5 },
      { pc := 0x104, instr := 0x00700613, targetReg := some 12, regVal := some 7 },
      { pc := 0x108, instr := 0x00500593, targetReg := some 11, regVal := some 5 },
      { pc := 0x10c, instr := 0x00b61123, memAddr := some 0x2002, memVal := some 5 },
      { pc := 0x110, instr := 0x0000006f }]
    let trace : DeviceTrace := {
      fetches := [⟨0x100, 0x00500593⟩, ⟨0x104, 0x00700613⟩, ⟨0x300, 0⟩, ⟨0x108, 0x00500593⟩,
        ⟨0x10c, 0x00b61123⟩, ⟨0x110, 0x0000006f⟩]
      commits := [⟨12, 7⟩, ⟨11, 5⟩]
      accesses := [⟨0x2000, 0x00050000⟩] }
    let settings : Settings := { wordBoundaryStores := true, reorderWindow := 2 }
    (verify golden trace settings).mismatches = [] ∧ Accounted settings golden trace := by
  intro golden trace settings
  have h : (verify golden trace settings).mismatches = [] := by decide
  exact ⟨h, accounted_of_mismatches_eq_nil golden trace settings h⟩

end Lockstep
