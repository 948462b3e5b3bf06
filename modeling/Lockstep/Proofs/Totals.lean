import Mathlib.Data.List.Perm.Basic
import Lockstep.Proofs.Jobs
import Lockstep.Proofs.Tally

/-!
# What a batch counts in all

The counters of a batch agree with its report: those of the verdicts are the numbers of its entries and of what
is skipped, and the others are the sums of what was found of the traces that could be read
(`BatchReport.Counted`). This hangs on which updates there are and not on their order
(`BatchReport.counted_of_perm`). However the pairs take turns, they have in the end counted what the report says
(`Counting.updates_perm`).

Where the pairs were found in two directories, what a batch counts is also the same for all orders: the traces are
then read as they are at first, whatever the other pairs have written (`Counting.Finished.verifications_eq`).
-/

namespace Lockstep

open Metrics (Update amounts total?)
open Underway (Turn Turns)
open scoped List

variable {output : Option String} {settings : Settings} {before files : FileTree} {s : Session}
  {pairing : Pairing} {workers : Nat}

/-! ## Counters and reports -/

namespace Metrics

variable {α : Type} {key : String}

/-- The counter of so many programs. It is not there if there are none. -/
def counted? (n : Nat) : Option UInt64 := if n = 0 then none else some (.ofNat n)

theorem total?_replicate_one (n : Nat) : total? (List.replicate n 1) = counted? n := by
  simp [total?, counted?]

theorem amounts_ofVerdict (verdict other : Verdict) :
    amounts (verdictKey verdict) (ofVerdict other) = if other = verdict then [1] else [] := by
  cases verdict <;> cases other <;> rfl

/-- Every program raises the counter of its verdict by one. -/
theorem amounts_verdicts (verdict : Verdict) (xs : List α) (verdictOf : α → Verdict) :
    amounts (verdictKey verdict) (xs.flatMap fun x => ofVerdict (verdictOf x)) =
      List.replicate (xs.countP (verdictOf · == verdict)) 1 := by
  rw [amounts_flatMap]
  induction xs with
  | nil => rfl
  | cons x xs ih =>
    rw [List.flatMap_cons, ih, amounts_ofVerdict, List.countP_cons]
    by_cases h : verdictOf x = verdict
    · simp [h, List.replicate_succ]
    · simp [h]

end Metrics

open Metrics (counted?)

namespace BatchReport

/-- What is counted for a report. Of each verification it is given how many nanoseconds it took. -/
def updates (workers : Nat) (report : BatchReport) (verifications : List (Verification × Nat)) :
    List Update :=
  Metrics.ofWorkers workers ++ (report.skipped.flatMap fun _ => Metrics.ofVerdict .skip) ++
    (verifications.flatMap fun (v, nanoseconds) => v.updates nanoseconds) ++
    report.entries.flatMap fun entry => Metrics.ofVerdict entry.verdict

/-- The counters are those of a report and of the verifications that were carried out. -/
structure Counted (report : BatchReport) (verifications : List Verification) (metrics : Metrics) :
    Prop where
  passed : metrics.counter? "tracesync_binaries_passed_total" = counted? report.passed
  failed : metrics.counter? "tracesync_binaries_failed_total" = counted? report.failed
  errored : metrics.counter? "tracesync_binaries_errored_total" = counted? report.errored
  skipped : metrics.counter? "tracesync_binaries_skipped_total" = counted? report.skipped.length
  mismatches : metrics.counter? "tracesync_mismatches_total" =
    total? (verifications.map (·.mismatches.length))
  speculativeFetches : metrics.counter? "tracesync_speculative_fetches_total" =
    total? (verifications.map (·.reconciliation.stats.speculativeFetches))
  synthesizedCommits : metrics.counter? "tracesync_synthesized_commits_total" =
    total? (verifications.map (·.reconciliation.stats.synthesizedCommits))
  reorderedCommits : metrics.counter? "tracesync_reordered_commits_total" =
    total? (verifications.map (·.reconciliation.stats.reorderedCommits))
  unknownInstructions : metrics.counter? "tracesync_unknown_instructions_total" =
    total? (verifications.map (·.reconciliation.stats.unknownInstructions))

variable {report : BatchReport} {verifications : List (Verification × Nat)} {updates : List Update}

theorem setsCounter_updates : ∀ update ∈ report.updates workers verifications,
    update.setsCounter = false := by
  simp only [BatchReport.updates, List.mem_append, List.mem_flatMap]
  rintro update (((h | ⟨_, -, h⟩) | ⟨v, -, h⟩) | ⟨entry, -, h⟩)
  · rw [List.mem_singleton.1 h]
    rfl
  · rw [List.mem_singleton.1 h]
    rfl
  · simp only [Verification.updates, Metrics.ofVerification, List.mem_cons, List.not_mem_nil,
      or_false] at h
    rcases h with rfl | rfl | rfl | rfl | rfl | rfl <;> rfl
  · rw [List.mem_singleton.1 h]
    rfl

/-- The counter of a verdict is not raised by verifications. -/
theorem amounts_updates_verdict (verdict : Verdict) :
    amounts (Metrics.verdictKey verdict) (report.updates workers verifications) =
      List.replicate ((report.skipped.countP fun _ => Verdict.skip == verdict) +
        report.count verdict) 1 := by
  have hworkers : amounts (Metrics.verdictKey verdict) (Metrics.ofWorkers workers) = [] := rfl
  have hverifications : amounts (Metrics.verdictKey verdict)
      (verifications.flatMap fun (v, nanoseconds) => v.updates nanoseconds) = [] :=
    Metrics.amounts_flatMap_eq_nil fun v _ => by cases verdict <;> rfl
  rw [BatchReport.updates, Metrics.amounts_append, Metrics.amounts_append, Metrics.amounts_append,
    hworkers, hverifications, Metrics.amounts_verdicts, Metrics.amounts_verdicts, List.nil_append,
    List.append_nil, List.replicate_append_replicate]
  rfl

/-- The other counters are raised by verifications only. -/
theorem amounts_updates_number {key : String} {number : Verification → Nat}
    (hverdict : ∀ verdict, amounts key (Metrics.ofVerdict verdict) = [])
    (h : ∀ v nanoseconds, amounts key (Verification.updates nanoseconds v) = [.ofNat (number v)]) :
    amounts key (report.updates workers verifications) =
      ((verifications.map Prod.fst).map number).map .ofNat := by
  have hworkers : amounts key (Metrics.ofWorkers workers) = [] := rfl
  have hskipped : amounts key (report.skipped.flatMap fun _ => Metrics.ofVerdict .skip) = [] :=
    Metrics.amounts_flatMap_eq_nil fun _ _ => hverdict _
  have hentries : amounts key (report.entries.flatMap fun entry =>
      Metrics.ofVerdict entry.verdict) = [] :=
    Metrics.amounts_flatMap_eq_nil fun _ _ => hverdict _
  rw [BatchReport.updates, Metrics.amounts_append, Metrics.amounts_append, Metrics.amounts_append,
    hworkers, hskipped, hentries, Metrics.amounts_flatMap, List.nil_append, List.nil_append,
    List.append_nil, List.map_map, List.map_map, List.map_eq_flatMap]
  exact List.flatMap_congr fun v _ => h v.1 v.2

theorem counter?_verdict (h : updates.Perm (report.updates workers verifications))
    (verdict : Verdict) : (Metrics.ofUpdates updates).counter? (Metrics.verdictKey verdict) =
      counted? ((report.skipped.countP fun _ => Verdict.skip == verdict) + report.count verdict) := by
  rw [← Metrics.total?_replicate_one]
  apply Metrics.counter?_of_perm h setsCounter_updates
  rw [amounts_updates_verdict, List.map_replicate]
  rfl

theorem counter?_entries (h : updates.Perm (report.updates workers verifications))
    (verdict : Verdict) (hne : verdict ≠ .skip) :
    (Metrics.ofUpdates updates).counter? (Metrics.verdictKey verdict) =
      counted? (report.count verdict) := by
  have hnone : report.skipped.countP (fun _ => Verdict.skip == verdict) = 0 :=
    List.countP_eq_zero.2 fun _ _ => by simpa using hne.symm
  rw [counter?_verdict h, hnone, Nat.zero_add]

theorem counter?_skipped (h : updates.Perm (report.updates workers verifications)) :
    (Metrics.ofUpdates updates).counter? (Metrics.verdictKey .skip) =
      counted? report.skipped.length := by
  have hall : report.skipped.countP (fun _ => Verdict.skip == .skip) = report.skipped.length :=
    List.countP_eq_length.2 fun _ _ => rfl
  have hnone : report.count .skip = 0 :=
    List.countP_eq_zero.2 fun entry _ => by simpa using entry.verdict_ne_skip
  rw [counter?_verdict h, hall, hnone, Nat.add_zero]

theorem counter?_number (h : updates.Perm (report.updates workers verifications)) {key : String}
    {number : Verification → Nat} (hverdict : ∀ verdict, amounts key (Metrics.ofVerdict verdict) = [])
    (hnumber : ∀ v nanoseconds,
      amounts key (Verification.updates nanoseconds v) = [.ofNat (number v)]) :
    (Metrics.ofUpdates updates).counter? key =
      total? ((verifications.map Prod.fst).map number) :=
  Metrics.counter?_of_perm h setsCounter_updates (amounts_updates_number hverdict hnumber)

/-- The order in which the updates arrive does not matter. -/
theorem counted_of_perm (h : updates.Perm (report.updates workers verifications)) :
    report.Counted (verifications.map Prod.fst) (Metrics.ofUpdates updates) where
  passed := counter?_entries h .pass nofun
  failed := counter?_entries h .fail nofun
  errored := counter?_entries h .error nofun
  skipped := counter?_skipped h
  mismatches := counter?_number h (by rintro (_ | _) <;> rfl) fun _ _ => rfl
  speculativeFetches := counter?_number h (by rintro (_ | _) <;> rfl) fun _ _ => rfl
  synthesizedCommits := counter?_number h (by rintro (_ | _) <;> rfl) fun _ _ => rfl
  reorderedCommits := counter?_number h (by rintro (_ | _) <;> rfl) fun _ _ => rfl
  unknownInstructions := counter?_number h (by rintro (_ | _) <;> rfl) fun _ _ => rfl

end BatchReport

namespace Counting

variable {counting next : Counting}

/-! ## What was counted in the end -/

/-- The pairs have counted what belongs to the report, in some order. -/
theorem updates_perm (h : Steps output settings (start pairing workers files) counting)
    (hfinished : counting.Finished) : counting.updates.Perm
      ((counting.report pairing).updates workers (counting.jobs.flatMap Job.verifications)) := by
  have hentries : (counting.jobs.flatMap Job.entries).Perm (counting.report pairing).entries :=
    (List.mergeSort_perm _ _).symm
  have howed : (counting.jobs.flatMap Job.owed).Perm
      (((counting.jobs.flatMap Job.verifications).flatMap fun (v, nanoseconds) =>
          v.updates nanoseconds) ++
        (counting.report pairing).entries.flatMap fun entry => Metrics.ofVerdict entry.verdict) := by
    -- What each pair owes is its verifications and its verdict, which are put apart here.
    apply (List.flatMap_append_perm counting.jobs _ _).symm.trans
    rw [← List.flatMap_assoc, ← List.flatMap_assoc]
    exact (hentries.flatMap_right _).append_left _
  apply ((balanced_of_steps h).perm hfinished).trans
  rw [BatchReport.updates, List.append_assoc _ (List.flatMap _ _)]
  exact howed.append_left _

/-! ## What was verified -/

theorem pairs_of_steps (h : Steps output settings (start pairing workers files) counting) :
    counting.jobs.map Job.pair = pairing.pairs := by
  induction h with
  | refl => simp [start, Function.comp_def]
  | tail _ hstep ih =>
    rw [← ih]
    cases hstep with
    | count => simp
    | turn => simp [Job.turn, Job.advance_pair]

/-- The files are once so between the first and the last of some steps. -/
def Visits (output : Option String) (settings : Settings) (first last : Counting)
    (files : FileTree) : Prop :=
  ∃ between, Steps output settings first between ∧ Steps output settings between last ∧
    between.files = files

/-- Each pair has verified its traces as it found them. -/
theorem faithful_of_steps {first : Counting} (hfirst : ∀ job ∈ first.jobs, job.stage = .begun ∧
      job.verifications = []) (h : Steps output settings first counting) :
    ∀ job ∈ counting.jobs, job.Faithful settings (Visits output settings first counting) := by
  induction h with
  | refl =>
    rintro ⟨pair, stage, verifications, due⟩ hjob
    obtain ⟨rfl, rfl⟩ : stage = .begun ∧ verifications = [] := hfirst _ hjob
    exact rfl
  | @tail counting next hsteps hstep ih =>
    -- The step reads the files as they are now, and what was seen before was seen.
    have hcurrent : Visits output settings first next counting.files :=
      ⟨counting, hsteps, .single hstep, rfl⟩
    have hkept : ∀ job ∈ counting.jobs, job.Faithful settings (Visits output settings first next) :=
      fun job hjob => (ih job hjob).mono fun files ⟨between, hbefore, hafter, heq⟩ =>
        ⟨between, hbefore, hafter.tail hstep, heq⟩
    cases hstep with
    | count front back job update due files updates =>
      rw [List.forall_mem_append, List.forall_mem_cons] at hkept ⊢
      exact hkept
    | turn front back job nanoseconds files updates hdue =>
      rw [List.forall_mem_append, List.forall_mem_cons] at hkept ⊢
      obtain ⟨hfront, hjob, hback⟩ := hkept
      exact ⟨hfront, hjob.turn fun _ => hcurrent, hback⟩

/-- At the end of a batch, it is settled what was verified by what was read. -/
theorem Finished.exists_visits (hfinished : counting.Finished)
    (h : Steps output settings (start pairing workers before) counting) :
    ∀ job ∈ counting.jobs, ∃ files later,
      Visits output settings (start pairing workers before) counting files ∧
      Visits output settings (start pairing workers before) counting later ∧
      job.verifications.map Prod.fst = (job.pair.verification? settings files later).toList := by
  have hfirst : ∀ job ∈ (start pairing workers before).jobs, job.stage = .begun ∧
      job.verifications = [] := by
    intro job hjob
    obtain ⟨pair, -, rfl⟩ := List.mem_map.1 hjob
    exact ⟨rfl, rfl⟩
  intro job hjob
  have hfaithful := faithful_of_steps hfirst h job hjob
  obtain ⟨-, result, hdone⟩ := hfinished job hjob
  obtain ⟨pair, stage, verifications, due⟩ := job
  obtain rfl : stage = .done result := hdone
  exact hfaithful

/-! ## Counting aside -/

/-- The batch without what it counts. -/
def underway (counting : Counting) : Underway where
  tasks := counting.jobs.map fun job => { pair := job.pair, stage := job.stage }
  files := counting.files

/-- A pair that counts takes no step. -/
theorem Step.turns (h : Step output settings counting next) :
    Turns output settings counting.underway next.underway := by
  cases h with
  | count front back job update due files updates =>
    simp only [underway, List.map_append, List.map_cons]
    exact .refl
  | turn front back job nanoseconds files updates hdue =>
    have hpair : (job.turn output settings nanoseconds files).1.pair = job.pair :=
      Job.advance_pair ..
    simp only [underway, List.map_append, List.map_cons, hpair, Job.turn_stage]
    exact .single (.turn _ _ _ _ _)

theorem Steps.turns (h : Steps output settings counting next) :
    Turns output settings counting.underway next.underway := by
  induction h with
  | refl => exact .refl
  | tail _ hstep ih => exact ih.trans hstep.turns

theorem underway_start (pairing : Pairing) (workers : Nat) (files : FileTree) :
    (start pairing workers files).underway = Underway.start pairing.pairs files := by
  simp [start, underway, Underway.start]

/-- Files of which pairs were found are read as they were at first. -/
theorem read_of_visits (hpairs : ∀ pair ∈ pairing.pairs, pair.IsPaired before)
    (h : Visits output settings (start pairing workers before) counting files) {pair : TracePair}
    (hpair : pair ∈ pairing.pairs) :
    TraceFile.readGolden pair.golden files = TraceFile.readGolden pair.golden before ∧
      TraceFile.readDevice pair.device files = TraceFile.readDevice pair.device before := by
  obtain ⟨between, hsteps, -, rfl⟩ := h
  have hturns := Steps.turns hsteps
  rw [underway_start] at hturns
  obtain ⟨taken, hfst, hfollows⟩ := exists_taken hpairs hturns
  obtain ⟨t, ht, rfl⟩ := List.mem_map.1 (hfst ▸ hpair : pair ∈ taken.map Prod.fst)
  exact (hpairs _ hpair).read_of_reached (hfollows.shared t ht).reached

theorem underway_finished (hfinished : counting.Finished) : counting.underway.Finished := by
  intro task htask
  obtain ⟨job, hjob, rfl⟩ := List.mem_map.1 htask
  exact (hfinished job hjob).2

/-- The report does not hang on how the pairs take turns. -/
theorem Finished.report_eq_alone (hfinished : counting.Finished)
    (hpairs : ∀ pair ∈ pairing.pairs, pair.IsPaired s.files)
    (h : Steps output settings (start pairing workers s.files) counting) :
    counting.report pairing = BatchReport.alone pairing output settings s := by
  have hturns := Steps.turns h
  rw [underway_start] at hturns
  obtain ⟨htasks, -⟩ := (underway_finished hfinished).eq_alone hpairs hturns
  -- The stage says all about an entry, so that it can be made of the task as well.
  have hentries : counting.jobs.flatMap Job.entries = counting.underway.tasks.flatMap
      fun task => Job.entries { pair := task.pair, stage := task.stage } := by
    rw [underway, List.flatMap_map]
    rfl
  have halone : counting.jobs.flatMap Job.entries =
      pairing.pairs.map (BatchEntry.alone output settings s) := by
    rw [hentries, htasks, List.flatMap_map]
    exact List.map_eq_flatMap.symm
  rw [report, halone]
  rfl

/-- Nor does it matter for what is verified, which is what can be read of the files as they were at first. -/
theorem Finished.verifications_eq (hfinished : counting.Finished)
    (hpairs : ∀ pair ∈ pairing.pairs, pair.IsPaired before)
    (h : Steps output settings (start pairing workers before) counting) :
    counting.verifications = pairing.pairs.filterMap (·.verification? settings before before) := by
  have hjobs : ∀ job ∈ counting.jobs, job.verifications.map Prod.fst =
      (job.pair.verification? settings before before).toList := by
    intro job hjob
    obtain ⟨files, later, hfiles, hlater, hverified⟩ := hfinished.exists_visits h job hjob
    have hpair : job.pair ∈ pairing.pairs := pairs_of_steps h ▸ List.mem_map_of_mem hjob
    rw [hverified, TracePair.verification?, (read_of_visits hpairs hfiles hpair).1,
      (read_of_visits hpairs hlater hpair).2]
    rfl
  calc counting.verifications
    _ = counting.jobs.flatMap fun job => job.verifications.map Prod.fst := List.map_flatMap
    _ = counting.jobs.flatMap fun job =>
        (job.pair.verification? settings before before).toList := List.flatMap_congr hjobs
    _ = pairing.pairs.flatMap fun pair =>
        (pair.verification? settings before before).toList := by
      rw [← pairs_of_steps h, List.flatMap_map]
    _ = pairing.pairs.filterMap (·.verification? settings before before) :=
      (List.filterMap_eq_flatMap_toList ..).symm

end Counting

open Counting (Steps Visits)

/-- A batch counts what it reports. However its pairs take turns, and in whatever order the updates arrive, the
counters of the verdicts are the numbers of the report, and the others add up what was found of the pairs whose
traces were both read, also of those whose output files could then not be written. Each pair has at most one
such verification, of the traces as the pair found them. Pairs that were found in the files are verified as
the files were at first, so that every order comes to the same report and the same counters.

Counters have 64 bits: up to there they are the exact numbers. -/
theorem runPairs_counts_report (hfresh : s.updates = #[]) (pairing : Pairing)
    (output : Option String) (workers : Nat) (settings : Settings) :
    (∀ pool : WorkerPool, pool.Starts workers → ∃ (counting : Counting) (s' : Session),
      runPairs pool pairing output workers settings s = .ok (counting.report pairing) s' ∧
      Steps output settings (Counting.start pairing workers s.files) counting ∧
      counting.Finished ∧ counting.files = s'.files ∧ counting.updates = s'.updates.toList) ∧
    ∀ counting : Counting,
      Steps output settings (Counting.start pairing workers s.files) counting →
      counting.Finished →
        (∀ updates : List Update, updates.Perm counting.updates →
          (counting.report pairing).Counted counting.verifications (Metrics.ofUpdates updates)) ∧
        counting.jobs.map Job.pair = pairing.pairs ∧
        (∀ job ∈ counting.jobs, ∃ files later,
          Visits output settings (Counting.start pairing workers s.files) counting files ∧
          Visits output settings (Counting.start pairing workers s.files) counting later ∧
          job.verifications.map Prod.fst =
            (job.pair.verification? settings files later).toList) ∧
        ((∀ pair ∈ pairing.pairs, pair.IsPaired s.files) →
          counting.report pairing = BatchReport.alone pairing output settings s ∧
          counting.verifications =
            pairing.pairs.filterMap (·.verification? settings s.files s.files)) := by
  refine ⟨fun pool hpool => Counting.exists_steps_runPairs hpool hfresh pairing output settings,
    fun counting hsteps hfinished => ⟨fun updates hperm => ?_, Counting.pairs_of_steps hsteps,
      hfinished.exists_visits hsteps, fun hpairs =>
        ⟨hfinished.report_eq_alone hpairs hsteps, hfinished.verifications_eq hpairs hsteps⟩⟩⟩
  exact BatchReport.counted_of_perm (hperm.trans (Counting.updates_perm hsteps hfinished))

/-- The golden trace of `b` ends too early, and a directory is where the reconciled trace of `c` would be. The
device did not do what `c` should do. -/
def unwritableProgram : Session where
  files :=
    let traces := traceFiles
      [("e.spike.json", "[]"),
        ("c.spike.json", "[\x7b\"pc\": 0, \"instr\": 19, \"target_reg\": 1, \"reg_val\": 1\x7d]"),
        ("b.spike.json", "["), ("a.spike.json", "[]")]
      [("a.fragmented.json", emptyTrace), ("b.fragmented.json", emptyTrace),
        ("c.fragmented.json", emptyTrace)]
    (traces.insert ["out"] .directory).insert ["out", "c.final.json"] .directory

def unwritablePairing : Pairing where
  pairs := [⟨"a", "g/a.spike.json", "d/a.fragmented.json"⟩,
    ⟨"b", "g/b.spike.json", "d/b.fragmented.json"⟩,
    ⟨"c", "g/c.spike.json", "d/c.fragmented.json"⟩]
  skipped := [⟨"e", "d/e.fragmented.json"⟩]

/-- The mismatch of `c` is counted, and the program is an error. -/
theorem runPairs_counts_report_of_unwritable :
    unwritableProgram.updates = #[] ∧
      Pairing.ofDirectories "g" "d" unwritableProgram.files = .ok unwritablePairing ∧
      ∃ report s', runPairs .unlimited unwritablePairing (some "out") 2 {} unwritableProgram =
          .ok report s' ∧
        report.passed = 1 ∧ report.failed = 0 ∧ report.errored = 2 ∧ report.skipped.length = 1 ∧
        ∀ updates : List Update, updates.Perm s'.updates.toList →
          let metrics := Metrics.ofUpdates updates
          metrics.counter? "tracesync_binaries_passed_total" = some 1 ∧
          metrics.counter? "tracesync_binaries_failed_total" = none ∧
          metrics.counter? "tracesync_binaries_errored_total" = some 2 ∧
          metrics.counter? "tracesync_binaries_skipped_total" = some 1 ∧
          metrics.counter? "tracesync_mismatches_total" = some 1 := by
  have hnames : unwritableProgram.files.names "g" =
      .ok ["a.spike.json", "b.spike.json", "c.spike.json", "e.spike.json"] := by
    decide +kernel
  have hpairing : Pairing.ofDirectories "g" "d" unwritableProgram.files = .ok unwritablePairing := by
    apply Pairing.ofDirectories_of_sorted hnames (by decide) (by decide +kernel)
    decide +kernel
  obtain ⟨hruns, hall⟩ :=
    runPairs_counts_report (s := unwritableProgram) rfl unwritablePairing (some "out") 2 {}
  obtain ⟨counting, s', hrun, hsteps, hfinished, -, hupdates⟩ :=
    hruns .unlimited (WorkerPool.starts_unlimited 2)
  obtain ⟨hcounted, -, -, halone⟩ := hall counting hsteps hfinished
  obtain ⟨hreport, hverifications⟩ := halone (Pairing.isPaired hpairing)
  have hverdicts : (unwritablePairing.pairs.map
      (BatchEntry.alone (some "out") {} unwritableProgram)).map BatchEntry.verdict =
        [.pass, .error, .error] := by
    decide +kernel
  have hcount (verdict : Verdict) : (counting.report unwritablePairing).count verdict =
      [Verdict.pass, .error, .error].count verdict := by
    rw [hreport, ← hverdicts, List.count, List.countP_map]
    exact (BatchReport.alone_perm ..).countP_eq _
  have hpassed : (counting.report unwritablePairing).passed = 1 := hcount .pass
  have hfailed : (counting.report unwritablePairing).failed = 0 := hcount .fail
  have herrored : (counting.report unwritablePairing).errored = 2 := hcount .error
  have hmismatches : counting.verifications.map (·.mismatches.length) = [0, 1] := by
    rw [hverifications]
    decide +kernel
  refine ⟨rfl, hpairing, _, s', hrun, hpassed, hfailed, herrored, rfl, fun updates hperm => ?_⟩
  obtain ⟨passed, failed, errored, skipped, mismatches, -⟩ := hcounted updates (hupdates ▸ hperm)
  rw [hpassed] at passed
  rw [hfailed] at failed
  rw [herrored] at errored
  rw [hmismatches] at mismatches
  exact ⟨passed, failed, errored, skipped, mismatches⟩

end Lockstep
