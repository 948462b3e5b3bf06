import Lockstep.CommandLine.Run
import Lockstep.Proofs.Tally
import Lockstep.Proofs.Truncation

/-!
# The exit code

The exit code is made of verdicts, and a verdict looks at errors and mismatches only. What it means for the
files is said by `TracePair.Clears`: both traces are read, the output files that are asked for are written, and
if mismatches are failures, then the reconciliation is complete, with no unknown word and no mismatch. A pair
clears exactly if its entry is no failure (`TracePair.clears_iff`), the pairs of a batch as if each of them were
alone. From there the chain is short: an answer says whether all pairs clear, and the exit code is zero if there
are settings and the answer is yes (`Invocation.code_eq_zero_iff`).

That the workers of a batch start is up to the system, so it is a hypothesis on the machine (`WorkerPool.Starts`).
Without workers there is nothing to report, and the code is one.
-/

namespace Lockstep

variable {s : Session} {files : FileTree} {output : Option String} {settings : Settings}
  {strict : Bool}

/-! ## Keeping a verification -/

/-- The files once a verification is kept in a directory. -/
def OutputFiles.put (directory name : String) (verification : Verification) (files : FileTree) :
    Except Error FileTree := do
  let made ← (files.createDirectories directory).mapError (.file directory)
  let half ← TraceFile.write (within directory name).reconciled
    (reconciledJson verification.reconciliation.entries) made
  TraceFile.write (within directory name).mismatches (mismatchesJson verification.mismatches) half

theorem Action.outcome_change_bind {α : Type} (f : FileTree → Except Error FileTree)
    (next : Unit → Action α) (s : Session) :
    outcome ((change f >>= next) s) =
      (f s.files).bind fun files => outcome (next () { s with files }) := by
  cases h : f s.files with
  | ok files => rw [change_bind_of_ok h]; rfl
  | error e => rw [change_bind_of_error h]; rfl

theorem OutputFiles.outcome_write (directory name : String) (verification : Verification)
    (s : Session) :
    Action.outcome (write directory name verification.reconciliation.entries
        verification.mismatches s) =
      (put directory name verification s.files).map fun _ => within directory name := by
  unfold write
  simp only [Action.outcome_change_bind]
  change Except.bind _ _ = ((Except.bind _ fun made => Except.bind _ fun half => _).map _)
  cases (s.files.createDirectories directory).mapError (Error.file directory) with
  | error e => rfl
  | ok made =>
    dsimp only [Except.bind]
    cases TraceFile.write (within directory name).reconciled
        (reconciledJson verification.reconciliation.entries) made with
    | error e => rfl
    | ok half =>
      dsimp only
      cases TraceFile.write (within directory name).mismatches
          (mismatchesJson verification.mismatches) half with
      | error e => rfl
      | ok after => rfl

/-- The files once a verification is kept, if that is asked for. -/
def Verification.filesKept (verification : Verification) (name : String) (output : Option String)
    (files : FileTree) : Except Error FileTree :=
  match output with
  | some directory => OutputFiles.put directory name verification files
  | none => .ok files

theorem Verification.outcome_keep (verification : Verification) (name : String)
    (output : Option String) (s : Session) :
    Action.outcome (verification.keep name output s) =
      (verification.filesKept name output s.files).map fun _ =>
        verification.report name (output.map (OutputFiles.within · name)) := by
  cases output with
  | none => rfl
  | some directory =>
    have hwrite : Action.outcome (verification.keep name (some directory) s) =
        (Action.outcome (OutputFiles.write directory name verification.reconciliation.entries
          verification.mismatches s)).map fun outputs => verification.report name (some outputs) := by
      rw [keep_some]
      split
      · next hwrite => rw [hwrite]; rfl
      · next hwrite => rw [hwrite]; rfl
    rw [hwrite, OutputFiles.outcome_write, filesKept]
    cases OutputFiles.put directory name verification s.files with
    | ok after => rfl
    | error e => rfl

/-! ## Pairs -/

/-- What has to be the case for a pair not to be a failure, where mismatches are failures or not. -/
def TracePair.Clears (pair : TracePair) (output : Option String) (settings : Settings)
    (strict : Bool) (files : FileTree) : Prop :=
  ∃ golden trace, TraceFile.readGolden pair.golden files = .ok golden ∧
    TraceFile.readDevice pair.device files = .ok trace ∧
    (∃ after, (verify golden trace settings).filesKept pair.name output files = .ok after) ∧
    (strict = true →
      (reconcile golden trace settings).outcome = .complete ∧
      (reconcile golden trace settings).stats.unknownInstructions = 0 ∧
      (verify golden trace settings).mismatches = [])

/-- What came of a pair is no failure. -/
def Verdict.clears (strict : Bool) (verdict : Verdict) : Bool :=
  verdict != .error && !(strict && verdict == .fail)

theorem BatchEntry.clears_of_error {entry : BatchEntry} {e : Error} (h : entry.result = .error e) :
    entry.verdict.clears strict = false := by
  rw [verdict, h]
  rfl

theorem BatchEntry.clears_iff_of_ok {entry : BatchEntry} {report : ProgramReport}
    (h : entry.result = .ok report) :
    entry.verdict.clears strict = true ↔ (strict = true → report.mismatches = []) := by
  rw [verdict, h, ← List.isEmpty_iff]
  dsimp only
  unfold ProgramReport.verdict ProgramReport.passed
  cases report.mismatches.isEmpty <;> cases strict <;> decide

/-- Without a mismatch, nothing else is wrong. -/
theorem clean_iff {golden : List GoldenEntry} {trace : DeviceTrace} :
    ((reconcile golden trace settings).outcome = .complete ∧
      (reconcile golden trace settings).stats.unknownInstructions = 0 ∧
      (verify golden trace settings).mismatches = []) ↔
      (verify golden trace settings).mismatches = [] := by
  refine ⟨fun h => h.2.2, fun h => ?_⟩
  obtain ⟨hcomplete, hknown, -⟩ := complete_of_mismatches_eq_nil h
  exact ⟨hcomplete, hknown, h⟩

/-- A pair clears if its entry is no failure. -/
theorem TracePair.clears_iff {pair : TracePair} :
    pair.Clears output settings strict s.files ↔
      (BatchEntry.alone output settings s pair).verdict.clears strict = true := by
  cases htraces : pair.traces s.files with
  | error e =>
    rw [BatchEntry.clears_of_error (BatchEntry.alone_of_not_read output settings htraces).1]
    refine ⟨?_, nofun⟩
    rintro ⟨golden, trace, hgolden, htrace, -⟩
    rw [traces_eq_ok.2 ⟨hgolden, htrace⟩] at htraces
    cases htraces
  | ok traces =>
    obtain ⟨golden, trace⟩ := traces
    obtain ⟨hgolden, htrace⟩ := traces_eq_ok.1 htraces
    have hclears : pair.Clears output settings strict s.files ↔
        (∃ after, (verify golden trace settings).filesKept pair.name output s.files = .ok after) ∧
          (strict = true → (verify golden trace settings).mismatches = []) := by
      unfold Clears
      simp only [hgolden, htrace, Except.ok.injEq, exists_and_left, exists_eq_left', clean_iff]
    obtain ⟨told, hfiles, -, hkeep⟩ := verifyPair_of_read output settings htraces
    have hresult : (BatchEntry.alone output settings s pair).result =
        Action.outcome ((verify golden trace settings).keep pair.name output told) :=
      congrArg Action.outcome hkeep
    rw [Verification.outcome_keep, hfiles] at hresult
    rw [hclears]
    cases hkept : (verify golden trace settings).filesKept pair.name output s.files with
    | error e =>
      rw [hkept] at hresult
      rw [BatchEntry.clears_of_error hresult]
      simp
    | ok after =>
      rw [hkept] at hresult
      rw [BatchEntry.clears_iff_of_ok hresult]
      simp [Verification.report]

instance (pair : TracePair) (output : Option String) (settings : Settings) (strict : Bool)
    (files : FileTree) : Decidable (pair.Clears output settings strict files) :=
  decidable_of_iff _ (TracePair.clears_iff (s := { files })).symm

namespace CommandLine

variable {machine : Machine}

/-! ## Answers -/

/-- The pair that is compared alone. -/
def comparedPair (golden device : String) : TracePair where
  name := Path.baseName golden
  golden
  device

theorem exists_compare (golden device : String) (output : Option String) (strict : Bool)
    (settings : Settings) (s : Session) :
    ∃ answer s', compare golden device output strict settings s = .ok answer s' ∧
      (answer.succeeded = true ↔
        (comparedPair golden device).Clears output settings strict s.files) := by
  obtain ⟨between, hattempt, -⟩ :=
    Action.exists_attempt (verifyPair (comparedPair golden device) output settings) s
  rw [TracePair.clears_iff]
  cases hresult : (BatchEntry.alone output settings s (comparedPair golden device)).result with
  | ok report =>
    refine ⟨_, _, Action.bind_of_ok (hattempt.trans (congrArg (EStateM.Result.ok · _) hresult)), ?_⟩
    rw [BatchEntry.clears_iff_of_ok hresult, ← List.isEmpty_iff]
    change (report.mismatches.isEmpty || !strict) = true ↔ _
    cases strict <;> simp
  | error e =>
    refine ⟨_, _, Action.bind_of_ok (hattempt.trans (congrArg (EStateM.Result.ok · _) hresult)), ?_⟩
    rw [BatchEntry.clears_of_error hresult]
    exact iff_of_false Bool.false_ne_true Bool.false_ne_true

theorem succeeded_batchAnswer (report : BatchReport) (strict : Bool) :
    (batchAnswer report strict).succeeded = true ↔
      ∀ entry ∈ report.entries, entry.verdict.clears strict = true := by
  have herrored : 0 < report.errored ↔ ∃ entry ∈ report.entries, entry.verdict = .error := by
    simp [BatchReport.errored, BatchReport.count, List.countP_pos_iff]
  have hfailed : 0 < report.failed ↔ ∃ entry ∈ report.entries, entry.verdict = .fail := by
    simp [BatchReport.failed, BatchReport.count, List.countP_pos_iff]
  have hsucceeded : (batchAnswer report strict).succeeded =
      !(decide (0 < report.errored) || (strict && decide (0 < report.failed))) := by
    unfold batchAnswer
    dsimp only
    split
    · next hfails => simp [hfails]
    · next hfails =>
      rw [Bool.not_eq_true] at hfails
      split
      all_goals simp [hfails]
  rw [hsucceeded, Bool.not_eq_true', Bool.or_eq_false_iff, decide_eq_false_iff_not, herrored]
  cases strict with
  | false => simp [Verdict.clears]
  | true =>
    rw [Bool.true_and, decide_eq_false_iff_not, hfailed]
    simp only [Verdict.clears, Bool.true_and, Bool.and_eq_true, bne_iff_ne, Bool.not_eq_true',
      beq_eq_false_iff_ne, not_exists, not_and, forall_and]

theorem batch_of_not_paired {goldenDirectory deviceDirectory : String} {e : Error}
    (h : Pairing.ofDirectories goldenDirectory deviceDirectory s.files = .error e)
    (output : Option String) (workers : Nat) (strict : Bool) (settings : Settings) :
    batch machine goldenDirectory deviceDirectory output workers strict settings s = .error e s := by
  have hpair : pairTraces goldenDirectory deviceDirectory s = .error e s :=
    Action.ask_bind_of_error h
  exact Action.bind_of_error hpair

/-- Once its directories are paired, a batch gives an answer. -/
theorem exists_batch_of_paired (machine : Machine) {goldenDirectory deviceDirectory : String}
    {pairing : Pairing}
    (h : Pairing.ofDirectories goldenDirectory deviceDirectory s.files = .ok pairing)
    (output : Option String) (workers : Nat) (strict : Bool) (settings : Settings) :
    ∃ answer s', batch machine goldenDirectory deviceDirectory output workers strict settings s =
        .ok answer s' ∧
      answer.succeeded = (batchOutcome (Action.outcome (runPairs machine.pool pairing output
        (machine.workers workers) settings (s.paired pairing))) strict).succeeded := by
  obtain ⟨s', hattempt, -⟩ := Action.exists_attempt
    (runPairs machine.pool pairing output (machine.workers workers) settings) (s.paired pairing)
  exact ⟨_, s', (Action.bind_of_ok (pairTraces_of_ok h)).trans (Action.bind_of_ok hattempt), rfl⟩

theorem exists_batch {goldenDirectory deviceDirectory : String} {pairing : Pairing} {workers : Nat}
    (hpool : machine.pool.Starts (machine.workers workers))
    (h : Pairing.ofDirectories goldenDirectory deviceDirectory s.files = .ok pairing)
    (output : Option String) (strict : Bool) (settings : Settings) :
    ∃ answer s', batch machine goldenDirectory deviceDirectory output workers strict settings s =
        .ok answer s' ∧
      (answer.succeeded = true ↔
        ∀ pair ∈ pairing.pairs, pair.Clears output settings strict s.files) := by
  obtain ⟨answer, s', hanswer, hsucceeded⟩ :=
    exists_batch_of_paired machine h output workers strict settings
  refine ⟨answer, s', hanswer, ?_⟩
  obtain ⟨after, hrun, -⟩ := runPairs_alone (s := s.paired pairing) hpool pairing
    (Pairing.isPaired h) output settings
  rw [hsucceeded, hrun]
  change (batchAnswer _ strict).succeeded = true ↔ _
  rw [succeeded_batchAnswer]
  have hfiles : (s.paired pairing).files = s.files := rfl
  simp only [(BatchReport.alone_perm pairing output settings _).mem_iff, List.forall_mem_map,
    TracePair.clears_iff, (BatchEntry.alone_congr output settings hfiles).1]

theorem not_succeeded_of_refused {goldenDirectory deviceDirectory : String} {workers : Nat}
    {reason : String} (hpool : machine.pool.start (machine.workers workers) = .error reason)
    {answer : Answer} {s' : Session}
    (h : batch machine goldenDirectory deviceDirectory output workers strict settings s =
      .ok answer s') : answer.succeeded = false := by
  cases hpairing : Pairing.ofDirectories goldenDirectory deviceDirectory s.files with
  | error e =>
    rw [batch_of_not_paired hpairing] at h
    cases h
  | ok pairing =>
    obtain ⟨_, _, hanswer, hsucceeded⟩ :=
      exists_batch_of_paired machine hpairing output workers strict settings
    rw [hanswer] at h
    cases h
    rw [hsucceeded, runPairs_of_refused hpool]
    rfl

/-! ## Invocations -/

/-- The session in which it was told of the settings files. -/
def Invocation.told (invocation : Invocation) (s : Session) : Session :=
  { s with events := s.events ++
      (invocation.command.flags.settings invocation.settingsFiles s.files).1 }

theorem Invocation.code_eq_one {invocation : Invocation}
    (h : (invocation.run machine s).1.code ≠ 0) : (invocation.run machine s).1.code = 1 := by
  unfold run at h ⊢
  dsimp only at h ⊢
  split
  · next hsucceeded => rw [if_pos hsucceeded] at h; exact absurd rfl h
  · rfl

/-- The code is zero if there are settings and the command succeeds with them. -/
theorem Invocation.code_eq_zero_iff (machine : Machine) (invocation : Invocation) (s : Session) :
    (invocation.run machine s).1.code = 0 ↔
      ∃ settings, (invocation.command.flags.settings invocation.settingsFiles s.files).2 =
          .ok settings ∧
        ∃ answer s', invocation.command.answer machine settings (invocation.told s) =
            .ok answer s' ∧
          answer.succeeded = true := by
  have hcode : (invocation.run machine s).1.code = 0 ↔
      ∃ answer s', invocation.action machine s = .ok answer s' ∧ answer.succeeded = true := by
    unfold Invocation.run Invocation.answer
    cases invocation.action machine s with
    | ok answer s' => simp
    | error e s' => simp [Answer.failed]
  have haction (answer : Answer) (s' : Session) : invocation.action machine s = .ok answer s' ↔
      ∃ settings, (invocation.command.flags.settings invocation.settingsFiles s.files).2 =
          .ok settings ∧
        invocation.command.answer machine settings (invocation.told s) = .ok answer s' :=
    Action.ask_bind_eq_ok
  simp only [hcode, haction]
  constructor
  · rintro ⟨answer, s', ⟨settings, hsettings, hanswer⟩, hsucceeded⟩
    exact ⟨settings, hsettings, answer, s', hanswer, hsucceeded⟩
  · rintro ⟨settings, hsettings, answer, s', hanswer, hsucceeded⟩
    exact ⟨answer, s', ⟨settings, hsettings, hanswer⟩, hsucceeded⟩

theorem exists_succeeded_iff {result : EStateM.Result Error Session Answer} {p : Prop}
    (h : ∃ answer s', result = .ok answer s' ∧ (answer.succeeded = true ↔ p)) :
    (∃ answer s', result = .ok answer s' ∧ answer.succeeded = true) ↔ p := by
  obtain ⟨answer, s', rfl, hsucceeded⟩ := h
  simpa using hsucceeded

theorem Invocation.code_compare {invocation : Invocation} {golden device : String}
    {output : Option String} {flags : VerifyFlags}
    (h : invocation.command = .compare golden device output flags) :
    (invocation.run machine s).1.code = 0 ↔
      ∃ settings, (flags.settings invocation.settingsFiles s.files).2 = .ok settings ∧
        (comparedPair golden device).Clears output settings flags.strict s.files := by
  rw [code_eq_zero_iff, h]
  apply exists_congr
  intro settings
  apply and_congr_right
  intro _
  exact exists_succeeded_iff
    (exists_compare golden device output flags.strict settings (invocation.told s))

theorem Invocation.code_batch {invocation : Invocation} {goldenDirectory deviceDirectory : String}
    {output : Option String} {workers : Nat} {flags : VerifyFlags}
    (h : invocation.command = .batch goldenDirectory deviceDirectory output workers flags)
    (hpool : machine.pool.Starts (machine.workers workers)) :
    (invocation.run machine s).1.code = 0 ↔
      ∃ settings, (flags.settings invocation.settingsFiles s.files).2 = .ok settings ∧
        ∃ pairing, Pairing.ofDirectories goldenDirectory deviceDirectory s.files = .ok pairing ∧
          ∀ pair ∈ pairing.pairs, pair.Clears output settings flags.strict s.files := by
  rw [code_eq_zero_iff, h]
  apply exists_congr
  intro settings
  apply and_congr_right
  intro _
  cases hpairing : Pairing.ofDirectories goldenDirectory deviceDirectory s.files with
  | error e =>
    have hanswer : (Command.batch goldenDirectory deviceDirectory output workers flags).answer
        machine settings (invocation.told s) = .error e (invocation.told s) :=
      batch_of_not_paired (s := invocation.told s) hpairing output workers flags.strict settings
    simp [hanswer]
  | ok pairing =>
    have hbatch := exists_batch (s := invocation.told s) hpool hpairing output flags.strict settings
    simp only [Except.ok.injEq, exists_eq_left']
    exact exists_succeeded_iff hbatch

theorem Invocation.code_batch_of_refused {invocation : Invocation}
    {goldenDirectory deviceDirectory : String} {output : Option String} {workers : Nat}
    {flags : VerifyFlags}
    (h : invocation.command = .batch goldenDirectory deviceDirectory output workers flags)
    (hpool : ¬ machine.pool.Starts (machine.workers workers)) :
    (invocation.run machine s).1.code = 1 := by
  obtain ⟨reason, hrefused⟩ := WorkerPool.not_starts_iff.1 hpool
  apply code_eq_one
  rw [ne_eq, code_eq_zero_iff, h]
  rintro ⟨settings, -, answer, s', hanswer, hsucceeded⟩
  rw [not_succeeded_of_refused hrefused hanswer] at hsucceeded
  cases hsucceeded

/-- A comparison ends with zero if there are settings and its pair clears. A batch whose workers start does if
there are settings and a golden trace, and every pair clears; what is skipped makes no difference. A batch whose
workers do not start ends with one. -/
theorem run_code_eq_zero_iff {arguments : List String} {invocation : Invocation} (machine : Machine)
    (s : Session) (h : Invocation.ofArguments arguments = .ok invocation) :
    (∀ golden device output flags, invocation.command = .compare golden device output flags →
      ((run machine arguments s).1.code = 0 ↔
        ∃ settings, (flags.settings invocation.settingsFiles s.files).2 = .ok settings ∧
          (comparedPair golden device).Clears output settings flags.strict s.files)) ∧
    ∀ goldenDirectory deviceDirectory output workers flags,
      invocation.command = .batch goldenDirectory deviceDirectory output workers flags →
      (machine.pool.Starts (machine.workers workers) →
        ((run machine arguments s).1.code = 0 ↔
          ∃ settings, (flags.settings invocation.settingsFiles s.files).2 = .ok settings ∧
            (∃ entries, s.files.listing goldenDirectory = .ok entries ∧
              ∃ file : String, file.toUTF8 ∈ entries ∧
                Pairing.IsGolden s.files goldenDirectory file) ∧
            ∀ pairing,
              Pairing.ofDirectories goldenDirectory deviceDirectory s.files = .ok pairing →
                ∀ pair ∈ pairing.pairs, pair.Clears output settings flags.strict s.files)) ∧
      (¬ machine.pool.Starts (machine.workers workers) → (run machine arguments s).1.code = 1) := by
  have hrun : run machine arguments s = invocation.run machine s := by
    unfold run
    rw [h]
  rw [hrun]
  refine ⟨fun golden device output flags hcommand => Invocation.code_compare hcommand,
    fun goldenDirectory deviceDirectory output workers flags hcommand =>
      ⟨fun hpool => ?_, Invocation.code_batch_of_refused hcommand⟩⟩
  rw [Invocation.code_batch hcommand hpool, ← Pairing.exists_ofDirectories_iff deviceDirectory]
  apply exists_congr
  intro settings
  apply and_congr_right
  intro _
  constructor
  · rintro ⟨pairing, hpairing, hclears⟩
    refine ⟨⟨pairing, hpairing⟩, fun other hother => ?_⟩
    obtain rfl := Except.ok.inj (hpairing.symm.trans hother)
    exact hclears
  · rintro ⟨⟨pairing, hpairing⟩, hclears⟩
    exact ⟨pairing, hpairing, hclears pairing hpairing⟩

/-- A machine on which no more than 32768 workers can be started. -/
def boundedMachine : Machine where
  pool := {
    start workers :=
      if workers ≤ 32768 then .ok ()
      else .error "Resource temporarily unavailable (os error 11)" }

/-- The golden trace of `a.b` expects a register that the device did not write. That is a failure only if
mismatches are. More workers than there can be are a failure, whatever they would have found. -/
theorem run_code_eq_zero_of_dotted :
    Invocation.ofArguments ["batch", "-S", "g", "-D", "d", "-o", "out"] = .ok
        { command := .batch "g" "d" (some "out") 0 {} } ∧
      boundedMachine.pool.Starts (boundedMachine.workers 0) ∧
      (run boundedMachine ["batch", "-S", "g", "-D", "d", "-o", "out"] dottedPrograms).1.code = 0 ∧
      Invocation.ofArguments ["batch", "-S", "g", "-D", "d", "-j", "65535"] = .ok
        { command := .batch "g" "d" none 65535 {} } ∧
      ¬ boundedMachine.pool.Starts (boundedMachine.workers 65535) ∧
      (run boundedMachine ["batch", "-S", "g", "-D", "d", "-j", "65535"] dottedPrograms).1.code = 1 ∧
      Invocation.ofArguments
          ["compare", "-s", "g/a.b.spike.json", "-d", "d/a.fragmented.json", "--strict"] = .ok
        { command := .compare "g/a.b.spike.json" "d/a.fragmented.json" none
            { strict := true } } ∧
      (run boundedMachine ["compare", "-s", "g/a.b.spike.json", "-d", "d/a.fragmented.json",
        "--strict"] dottedPrograms).1.code ≠ 0 := by
  have hbatch : Invocation.ofArguments ["batch", "-S", "g", "-D", "d", "-o", "out"] = .ok
      { command := .batch "g" "d" (some "out") 0 {} } := by
    decide +kernel
  have hmany : Invocation.ofArguments ["batch", "-S", "g", "-D", "d", "-j", "65535"] = .ok
      { command := .batch "g" "d" none 65535 {} } := by
    decide +kernel
  have hcompare : Invocation.ofArguments
      ["compare", "-s", "g/a.b.spike.json", "-d", "d/a.fragmented.json", "--strict"] = .ok
        { command := .compare "g/a.b.spike.json" "d/a.fragmented.json" none
            { strict := true } } := by
    decide +kernel
  have hstarts : boundedMachine.pool.Starts (boundedMachine.workers 0) := rfl
  have hrefused : ¬ boundedMachine.pool.Starts (boundedMachine.workers 65535) :=
    WorkerPool.not_starts_iff.2 ⟨_, rfl⟩
  have hlisting : dottedPrograms.files.listing "g" =
      .ok ["a.b.spike.json".toUTF8, "a.spike.json".toUTF8] := by
    decide +kernel
  have hnames := FileTree.names_of_listing hlisting
  have hpairing : Pairing.ofDirectories "g" "d" dottedPrograms.files = .ok dottedPairing := by
    apply Pairing.ofDirectories_of_sorted hnames (by decide +kernel) (by decide +kernel)
    decide +kernel
  have hclears : ∀ pair ∈ dottedPairing.pairs,
      pair.Clears (some "out") {} false dottedPrograms.files := by
    decide +kernel
  refine ⟨hbatch, hstarts, ?_, hmany, hrefused, ?_, hcompare, ?_⟩
  · rw [((run_code_eq_zero_iff boundedMachine dottedPrograms hbatch).2 _ _ _ _ _ rfl).1 hstarts]
    refine ⟨{}, rfl, ⟨_, hlisting, "a.spike.json", by simp, by decide +kernel, by decide +kernel⟩,
      fun pairing hother => ?_⟩
    obtain rfl := Except.ok.inj (hpairing.symm.trans hother)
    exact hclears
  · exact ((run_code_eq_zero_iff boundedMachine dottedPrograms hmany).2 _ _ _ _ _ rfl).2 hrefused
  · rw [ne_eq, (run_code_eq_zero_iff boundedMachine dottedPrograms hcompare).1 _ _ _ _ rfl]
    rintro ⟨settings, hsettings, hclears⟩
    obtain rfl : {} = settings := Except.ok.inj hsettings
    revert hclears
    decide +kernel

end CommandLine
end Lockstep
