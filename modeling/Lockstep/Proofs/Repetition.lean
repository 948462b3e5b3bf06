import Lockstep.Proofs.Provenance
import Lockstep.Proofs.Truncation

/-!
# Repeated writes

A golden write that repeats the value of its register is supplied, because the device does not show it.
Whether a write repeats is told from the golden entries before it, but not from all of them: one whose
fetch took no register commit has not changed the register file that the run keeps. So each golden entry
is put beside the fetch that was matched to it (`matched`), and the register file is what those with a
register effect have written (`committed`).

* `speculativeCommit_iff_repeats`: an entry is marked as supplied exactly when its golden write repeats,
  and a step that shows no commit of the device moves none of them.
* `synthesizedCommits_reconcile`: the count of supplied commits is that of the marked entries, except that
  a run that ends early at a repeated write has counted one more, which no entry shows
  (`synthesizedCommits_of_missing_fetch`).
-/

namespace Lockstep

/-- Each golden entry beside the fetch that was matched to it: the first one at its program counter, behind
those of the golden entries before it. -/
def matched : List GoldenEntry → List ReconciledEntry → List (GoldenEntry × ReconciledEntry)
  | [], _ => []
  | _ :: _, [] => []
  | golden :: rest, entry :: entries =>
    if entry.pc = golden.pc then (golden, entry) :: matched rest entries
    else matched (golden :: rest) entries

/-- The golden entries whose fetch has a register effect. -/
def committed (pairs : List (GoldenEntry × ReconciledEntry)) : List GoldenEntry :=
  (pairs.filter (·.2.targetReg.isSome)).map (·.1)

/-- The repeated write of the golden entry behind those that were matched. A run that stops there has
supplied its commit, and no fetch has taken it. -/
def unsettledWrite? (file : RegisterFile) (golden : List GoldenEntry)
    (entries : List ReconciledEntry) : Option RegisterWrite :=
  golden[(matched golden entries).length]?.bind
    (Reconciliation.repeatedWrite? ((committed (matched golden entries)).foldl .follow file))

instance (reset : UInt32) (earlier : List GoldenEntry) (write : RegisterWrite) :
    Decidable (Repeats reset earlier write) :=
  inferInstanceAs (Decidable (_ ∧ _ ∧ _))

theorem Instruction.exists_demand_eq_commit_iff {word : Instruction} :
    (∃ mayReorder, word.demand = .commit mayReorder) ↔
      word.category.writesRegister = true ∧ word.targetsZero = false := by
  unfold Instruction.demand Category.writesRegister
  cases word.category <;> cases word.targetsZero <;> simp

theorem committed_cons (pair : GoldenEntry × ReconciledEntry)
    (pairs : List (GoldenEntry × ReconciledEntry)) :
    committed (pair :: pairs) = committed [pair] ++ committed pairs := by
  unfold committed
  rw [← List.map_append, ← List.filter_append, List.singleton_append]

/-! ## Matched entries -/

section matched

variable {golden : GoldenEntry} {rest : List GoldenEntry} {skipped : List Fetch}
  {entry : ReconciledEntry}

theorem matched_skipped (h : ∀ f ∈ skipped, f.pc ≠ golden.pc) (later : List ReconciledEntry) :
    matched (golden :: rest) (skipped.map Reconciliation.speculative ++ later) =
      matched (golden :: rest) later := by
  induction skipped with
  | nil => rfl
  | cons first skipped ih =>
      obtain ⟨hfirst, hskipped⟩ := List.forall_mem_cons.1 h
      have hpc : (Reconciliation.speculative first).pc ≠ golden.pc := hfirst
      rw [List.map_cons, List.cons_append, matched, if_neg hpc]
      exact ih hskipped

theorem matched_of_absent (h : ∀ f ∈ skipped, f.pc ≠ golden.pc) :
    matched (golden :: rest) (skipped.map Reconciliation.speculative) = [] := by
  rw [← List.append_nil (skipped.map _), matched_skipped h, matched]

theorem matched_cons (h : entry.pc = golden.pc) (later : List ReconciledEntry) :
    matched (golden :: rest) (entry :: later) = (golden, entry) :: matched rest later := by
  rw [matched, if_pos h]

theorem map_fst_matched_isPrefix (golden : List GoldenEntry) (entries : List ReconciledEntry) :
    (matched golden entries).map (·.1) <+: golden := by
  induction golden, entries using matched.induct with
  | case1 | case2 =>
      rw [matched]
      exact List.nil_prefix
  | case3 golden rest entry entries hpc ih =>
      rw [matched, if_pos hpc]
      exact (List.prefix_cons_inj golden).2 ih
  | case4 golden rest entry entries hpc ih =>
      rw [matched, if_neg hpc]
      exact ih

end matched

/-! ## The repeats of a run -/

theorem repeatedWrite?_after_eq_some_iff {reset : UInt32} {earlier : List GoldenEntry}
    {golden : GoldenEntry} {write : RegisterWrite} :
    Reconciliation.repeatedWrite? (earlier.foldl RegisterFile.follow (.filled reset)) golden =
        some write ↔
      golden.registerWrite? = some write ∧ Repeats reset earlier write := by
  rw [Reconciliation.repeatedWrite?_eq_some_iff, repeats_after_iff]

theorem repeatedWrite?_after_eq_none {reset : UInt32} {earlier : List GoldenEntry}
    {golden : GoldenEntry} {write : RegisterWrite} (hw : golden.registerWrite? = some write)
    (hr : ¬ Repeats reset earlier write) :
    Reconciliation.repeatedWrite? (earlier.foldl RegisterFile.follow (.filled reset)) golden =
      none := by
  rw [Option.eq_none_iff_forall_ne_some]
  intro other ho
  obtain ⟨hother, hrepeats⟩ := repeatedWrite?_after_eq_some_iff.1 ho
  obtain rfl := Option.some.inj (hother.symm.trans hw)
  exact hr hrepeats

theorem length_repeatedWrite?_after {reset : UInt32} {earlier : List GoldenEntry}
    {golden : GoldenEntry} :
    (Reconciliation.repeatedWrite? (earlier.foldl RegisterFile.follow (.filled reset))
        golden).toList.length =
      if ∃ write ∈ golden.registerWrite?, Repeats reset earlier write then 1 else 0 := by
  cases h : Reconciliation.repeatedWrite? (earlier.foldl RegisterFile.follow (.filled reset))
      golden with
  | none =>
      rw [if_neg]
      · rfl
      · rintro ⟨write, hw, hr⟩
        rw [repeatedWrite?_after_eq_some_iff.2 ⟨hw, hr⟩] at h
        cases h
  | some write =>
      obtain ⟨hw, hr⟩ := repeatedWrite?_after_eq_some_iff.1 h
      rw [if_pos ⟨write, hw, hr⟩]
      rfl

namespace Reconciliation

variable {settings : Settings} {golden : GoldenEntry} {fetch : Fetch} {p q : Progress}
  {entry : ReconciledEntry} {stats : Stats}

theorem Serves.speculativeCommit_iff (h : Serves settings golden fetch p entry stats q) :
    entry.speculativeCommit = true ↔
      (∃ mayReorder, entry.instr.demand = .commit mayReorder) ∧
        ∃ write, repeatedWrite? p.shadow golden = some write := by
  cases h with
  | @supplied mayReorder write demand repeated =>
      exact iff_of_true rfl ⟨⟨mayReorder, demand⟩, write, repeated⟩
  | observed demand fresh front =>
      refine iff_of_false Bool.false_ne_true ?_
      rintro ⟨-, write, repeated⟩
      rw [fresh] at repeated
      cases repeated
  | stored demand | silent demand | unknown demand =>
      refine iff_of_false Bool.false_ne_true ?_
      rintro ⟨⟨mayReorder, hd⟩, -⟩
      cases demand.symm.trans hd

theorem Serves.toEffect_of_speculativeCommit (h : Serves settings golden fetch p entry stats q)
    (hs : entry.speculativeCommit = true) :
    ∃ write, golden.registerWrite? = some write ∧ entry.toEffect = .ofWrite write := by
  cases h with
  | @supplied mayReorder write demand repeated =>
      obtain ⟨hw, -⟩ := repeatedWrite?_eq_some_iff.1 repeated
      exact ⟨write, hw, rfl⟩
  | observed | stored | silent | unknown => cases hs

/-- The register file follows the golden entries whose fetch has a register effect. -/
theorem Serves.shadow_eq (h : Serves settings golden fetch p entry stats q) :
    q.shadow = (committed [(golden, entry)]).foldl RegisterFile.follow p.shadow := by
  cases h with
  | supplied demand repeated => exact (follow_of_repeated repeated).symm
  | observed | stored | silent | unknown => rfl

theorem Serves.synthesizedCommits_eq (h : Serves settings golden fetch p entry stats q) :
    stats.synthesizedCommits = if entry.speculativeCommit = true then 1 else 0 := by
  cases h with
  | supplied | observed | stored | silent | unknown => rfl

/-- A step whose entry shows no commit of the device leaves the pending ones as they were. -/
theorem pending_step_of_not_observes (settings : Settings) (golden : GoldenEntry) (p : Progress)
    (hran : (step settings golden p).ranOut = none)
    (hshown : ∀ entry ∈ (step settings golden p).entries, entry.observesCommit = false) :
    (step settings golden p).progress.commits.pending = p.commits.pending := by
  rcases stops_or_serves settings golden p with
    ⟨stream, skipped, later, hs⟩ | ⟨skipped, fetch, later, entry, stats, q, ha, hs⟩
  · obtain ⟨events, he⟩ := step_of_stops settings hs
    rw [he] at hran
    cases hran
  · obtain ⟨events, he⟩ := step_of_serves ha hs
    rw [he] at hshown ⊢
    rcases hs.leaves_or_takes with leaves | ⟨commit, takes⟩
    · exact leaves.pending
    · have hnone := hshown entry (List.mem_append_right _ List.mem_cons_self)
      rw [takes.observes] at hnone
      cases hnone

variable {index : Nat} {goldens : List GoldenEntry} {r : Reconciliation}

theorem matched_served (rest : List GoldenEntry) {skipped later : List Fetch}
    (ha : Aligns golden p.fetches.pending skipped fetch later)
    (hs : Serves settings golden fetch p entry stats q) (entries : List ReconciledEntry) :
    matched (golden :: rest) (skipped.map speculative ++ entry :: entries) =
      (golden, entry) :: matched rest entries := by
  have hpc : entry.pc = golden.pc := (congrArg Fetch.pc hs.toFetch_eq).trans ha.pc_eq
  rw [matched_skipped ha.skipped_ne, matched_cons hpc]

theorem unsettledWrite?_of_serves {rest : List GoldenEntry} {skipped later : List Fetch}
    (ha : Aligns golden p.fetches.pending skipped fetch later)
    (hs : Serves settings golden fetch p entry stats q) (entries : List ReconciledEntry) :
    unsettledWrite? p.shadow (golden :: rest) (skipped.map speculative ++ entry :: entries) =
      unsettledWrite? q.shadow rest entries := by
  unfold unsettledWrite?
  rw [matched_served rest ha hs, List.length_cons, List.getElem?_cons_succ, committed_cons,
    List.foldl_append, ← hs.shadow_eq]

theorem unsettledWrite?_of_stops {rest : List GoldenEntry} {stream : Stream}
    {skipped later : List Fetch} (h : Stops golden p stream skipped later) :
    unsettledWrite? p.shadow (golden :: rest) (skipped.map speculative) =
      repeatedWrite? p.shadow golden := by
  unfold unsettledWrite?
  rw [matched_of_absent h.skipped_ne]
  rfl

/-- The golden entries that a run got through are those that were matched. -/
theorem Run.length_matched (h : Run settings index goldens p r) :
    index + (matched goldens r.entries).length = r.outcome.reached (index + goldens.length) := by
  induction h with
  | finished => rfl
  | stopped stops =>
      show _ + (matched _ (List.map speculative _)).length = _
      rw [matched_of_absent stops.skipped_ne]
      rfl
  | @served index golden rest p q skipped later fetch entry stats r aligns serves run ih =>
      show index + (matched _ (skipped.map speculative ++ entry :: r.entries)).length = _
      rw [matched_served _ aligns serves, List.length_cons, List.length_cons, ← Nat.add_assoc,
        Nat.add_right_comm, ih]
      congr 1
      omega

/-- **Each matched entry was served**, by a state whose register file holds what was committed before. -/
theorem Run.exists_serves (h : Run settings index goldens p r) {i : Nat}
    (hi : (matched goldens r.entries)[i]? = some (golden, entry)) :
    ∃ before stats after,
      before.shadow =
        (committed ((matched goldens r.entries).take i)).foldl RegisterFile.follow p.shadow ∧
      Serves settings golden entry.toFetch before entry stats after := by
  induction h generalizing i with
  | finished => cases hi
  | stopped stops =>
      rw [matched_of_absent stops.skipped_ne] at hi
      cases hi
  | @served index first rest p q skipped later fetch served stats r aligns serves run ih =>
      have hmatched := matched_served rest aligns serves r.entries
      rw [hmatched] at hi ⊢
      cases i with
      | zero =>
          cases hi
          refine ⟨p, stats, q, rfl, ?_⟩
          rw [serves.toFetch_eq]
          exact serves
      | succ i =>
          obtain ⟨before, stats', after, hshadow, hserves⟩ := ih hi
          refine ⟨before, stats', after, ?_, hserves⟩
          rw [hshadow, List.take_succ_cons, committed_cons, List.foldl_append, ← serves.shadow_eq]

/-- **What a run has counted**: the commits that its entries show as supplied, and the one that it
supplied at the golden entry where it stopped. -/
theorem Run.synthesizedCommits_eq (h : Run settings index goldens p r) :
    r.stats.synthesizedCommits = r.entries.countP (·.speculativeCommit) +
      (unsettledWrite? p.shadow goldens r.entries).toList.length := by
  induction h with
  | finished => rfl
  | @stopped index golden rest p stream skipped later stops =>
      show List.length _ = List.countP _ (skipped.map speculative) + _
      rw [countP_speculative fun _ => rfl, unsettledWrite?_of_stops stops, Nat.zero_add]
  | @served index golden rest p q skipped later fetch entry stats r aligns serves run ih =>
      have hlater : r.stats.synthesizedCommits = r.entries.countP (·.speculativeCommit) +
          (unsettledWrite? q.shadow rest r.entries).toList.length := ih
      show stats.synthesizedCommits + r.stats.synthesizedCommits =
        (skipped.map speculative ++ entry :: r.entries).countP _ + _
      rw [countP_skipped fun _ => rfl, unsettledWrite?_of_serves aligns serves,
        serves.synthesizedCommits_eq, hlater, Nat.add_assoc]

/-- Where the commits have run out, the golden entry waits for one of the device. -/
theorem Run.unsettledWrite?_of_commits (h : Run settings index goldens p r) {stop : Nat}
    (ho : r.outcome = .exhausted .commits stop) : unsettledWrite? p.shadow goldens r.entries = none := by
  induction h with
  | finished => cases ho
  | stopped stops =>
      cases ho
      rw [unsettledWrite?_of_stops stops]
      cases stops with
      | commits aligns demand fresh empty => exact fresh
  | served aligns serves run ih =>
      rw [unsettledWrite?_of_serves aligns serves]
      exact ih ho

end Reconciliation

/-! ## Whole traces -/

theorem length_matched_reconcile (golden : List GoldenEntry) (trace : DeviceTrace)
    (settings : Settings) :
    (matched golden (reconcile golden trace settings).entries).length =
      (reconcile golden trace settings).outcome.reached golden.length := by
  have hlength := (run_reconcile golden trace settings).length_matched
  rw [Nat.zero_add, Nat.zero_add] at hlength
  exact hlength

/-- **An entry is marked as supplied exactly when its golden write repeats.** Of the golden entries before
it, those count whose fetch has a register effect. The entry then shows that write and nothing else. A step
that shows no commit of the device leaves the pending ones exactly as they were. -/
theorem speculativeCommit_iff_repeats (golden : List GoldenEntry) (trace : DeviceTrace)
    (settings : Settings) :
    let r := reconcile golden trace settings
    let pairs := matched golden r.entries
    pairs.map (·.1) = golden.take (r.outcome.reached golden.length) ∧
    (∀ (i : Nat) (expected : GoldenEntry) (entry : ReconciledEntry),
      pairs[i]? = some (expected, entry) →
      (entry.speculativeCommit = true ↔
        (entry.instr.category.writesRegister = true ∧ entry.instr.targetsZero = false) ∧
        ∃ write, expected.registerWrite? = some write ∧
          Repeats settings.shadowResetValue (committed (pairs.take i)) write) ∧
      (entry.speculativeCommit = true →
        ∃ write, expected.registerWrite? = some write ∧ entry.toEffect = .ofWrite write)) ∧
    ∀ (expected : GoldenEntry) (p : Progress),
      (Reconciliation.step settings expected p).ranOut = none →
      (∀ entry ∈ (Reconciliation.step settings expected p).entries, entry.observesCommit = false) →
      (Reconciliation.step settings expected p).progress.commits.pending = p.commits.pending := by
  intro r pairs
  refine ⟨?_, ?_, Reconciliation.pending_step_of_not_observes settings⟩
  · have hprefix := List.prefix_iff_eq_take.1 (map_fst_matched_isPrefix golden r.entries)
    rw [List.length_map, length_matched_reconcile] at hprefix
    exact hprefix
  · intro i expected entry hi
    obtain ⟨before, stats, after, hshadow, hserves⟩ :=
      (run_reconcile golden trace settings).exists_serves hi
    refine ⟨?_, hserves.toEffect_of_speculativeCommit⟩
    rw [hserves.speculativeCommit_iff, Instruction.exists_demand_eq_commit_iff, hshadow]
    exact and_congr_right fun _ => exists_congr fun _ => repeatedWrite?_after_eq_some_iff

/-- The second write repeats, but its fetch is missing: its commit is counted as supplied, and no entry
shows it. -/
theorem synthesizedCommits_of_missing_fetch :
    let golden : List GoldenEntry := [
      { pc := 0x100, instr := 0x00500593, targetReg := some 11, regVal := some 5 },
      { pc := 0x104, instr := 0x00500593, targetReg := some 11, regVal := some 5 }]
    let trace : DeviceTrace := {
      fetches := [⟨0x100, 0x00500593⟩]
      commits := [⟨11, 5⟩] }
    let r := reconcile golden trace {}
    r.outcome = .exhausted .fetches 1 ∧ r.stats.synthesizedCommits = 1 ∧
      r.entries.countP (·.speculativeCommit) = 0 := by
  decide

/-- **What is counted as supplied.** A complete run has counted the entries that are marked. One that ends
early has counted one more if the golden entry at which it stopped repeats, which it never does where the
commits have run out. -/
theorem synthesizedCommits_reconcile (golden : List GoldenEntry) (trace : DeviceTrace)
    (settings : Settings) :
    let r := reconcile golden trace settings
    let supplied := r.entries.countP (·.speculativeCommit)
    (r.outcome = .complete → r.stats.synthesizedCommits = supplied) ∧
    ∀ stream i, r.outcome = .exhausted stream i → ∃ expected, golden[i]? = some expected ∧
      r.stats.synthesizedCommits = supplied +
        (if ∃ write ∈ expected.registerWrite?,
            Repeats settings.shadowResetValue (committed (matched golden r.entries)) write
          then 1 else 0) ∧
      (stream = .commits → r.stats.synthesizedCommits = supplied) := by
  intro r supplied
  have hrun := run_reconcile golden trace settings
  have hcount := hrun.synthesizedCommits_eq
  have hlength := length_matched_reconcile golden trace settings
  constructor
  · intro ho
    rw [ho, Outcome.reached] at hlength
    rw [hcount, unsettledWrite?, hlength, List.getElem?_eq_none (Nat.le_refl _)]
    rfl
  · intro stream i ho
    have hlt := hrun.reached_lt ho
    rw [Nat.zero_add] at hlt
    rw [ho, Outcome.reached] at hlength
    refine ⟨golden[i], List.getElem?_eq_getElem hlt, ?_, ?_⟩
    · rw [hcount, unsettledWrite?, hlength, List.getElem?_eq_getElem hlt]
      exact congrArg (supplied + ·) length_repeatedWrite?_after
    · rintro rfl
      rw [hcount, hrun.unsettledWrite?_of_commits ho]
      rfl

end Lockstep
