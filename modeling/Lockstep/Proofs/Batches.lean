import Lockstep.Proofs.Effects

/-!
# Batches

The pairs of a batch share one tree of files. `exists_mapM_runPair` is the induction over them: a pair that
comes later finds its traces as they were before the batch, since an output file is never called like a trace
(`TraceFile.read_of_input`), and what was kept for a pair that came earlier stays, since an output file
belongs to one program (`BatchEntry.Settles.of_later`). The second of these is why the names have to be
different; the first asks that the pairs are such as directories give (`TracePair.IsPaired`).

Workers that do not start end a batch before its first pair (`runPairs_of_refused`).
-/

namespace Lockstep

variable {directory : String} {settings : Settings} {pair : TracePair} {s : Session}
  {before after : FileTree} {pool : WorkerPool} {workers : Nat}

/-! ## Entries -/

/-- An entry is on a pair of files as they were before a batch. If it has a report, then the files after
the batch hold what the report says. -/
def BatchEntry.Settles (directory : String) (settings : Settings) (before after : FileTree)
    (pair : TracePair) (entry : BatchEntry) : Prop :=
  entry.name = pair.name ∧ ∀ report, entry.result = .ok report →
    ∃ golden trace, TraceFile.readGolden pair.golden before = .ok golden ∧
      TraceFile.readDevice pair.device before = .ok trace ∧ report.name = pair.name ∧
      report.Records directory after (verify golden trace settings)

/-- A pair always gives an entry with what came of its verification, and the verdict is counted. -/
theorem runPair_eq_ok (output : Option String) (settings : Settings) (pair : TracePair) (s : Session) :
    ∃ s', runPair output settings pair s = .ok
        { name := pair.name, result := Action.outcome (verifyPair pair output settings s) } s' ∧
      s'.files = Action.filesAfter (verifyPair pair output settings s) ∧
      s'.updates = Action.updatesAfter (verifyPair pair output settings s) ++ Metrics.ofVerdict
        (BatchEntry.mk pair.name (Action.outcome (verifyPair pair output settings s))).verdict := by
  obtain ⟨after, hattempt, hfiles, hupdates⟩ :=
    Action.exists_attempt (verifyPair pair output settings) s
  rw [← hfiles, ← hupdates]
  -- An error is told of as well.
  cases hresult : Action.outcome (verifyPair pair output settings s) with
  | ok report =>
    rw [hresult] at hattempt
    exact ⟨_, Action.bind_of_ok hattempt, rfl, rfl⟩
  | error e =>
    rw [hresult] at hattempt
    exact ⟨_, Action.bind_of_ok hattempt, rfl, rfl⟩

theorem exists_runPair (slashless : '/' ∉ pair.name.toList) (directory : String)
    (settings : Settings) (s : Session) :
    ∃ entry s', runPair (some directory) settings pair s = .ok entry s' ∧
      FileTree.Grows (OutputFiles.IsFor pair.name) s.files s'.files ∧
      entry.Settles directory settings s.files s'.files pair := by
  obtain ⟨s', hrun, hfiles, -⟩ := runPair_eq_ok (some directory) settings pair s
  refine ⟨_, s', hrun, ?_, rfl, ?_⟩
  · rw [hfiles]
    exact verifyPair_writes slashless s
  · intro report hreport
    cases hverify : verifyPair pair (some directory) settings s with
    | ok report' after =>
      rw [hverify] at hreport hfiles
      cases hreport
      rw [hfiles]
      exact records_of_verifyPair hverify
    | error e after =>
      rw [hverify] at hreport
      cases hreport

/-! ## Inputs -/

/-- A file is called as an output file of some program is. -/
def OutputFiles.IsForSome (file : String) : Prop := ∃ program, OutputFiles.IsFor program file

namespace TraceFile

/-- What the names of the files end with that are paired. -/
def inputSuffixes : List String := [goldenSuffix, deviceSuffix]

variable {ending : String}

theorem not_isForSome {file : String} (h : ending ∈ inputSuffixes)
    (hsuffix : ending.toList <:+ file.toList) : ¬ OutputFiles.IsForSome file := by
  have apart : ∀ a ∈ inputSuffixes, a ∈ suffixes ∧ a ≠ reconciledSuffix ∧ a ≠ mismatchSuffix := by
    decide
  obtain ⟨hending, hreconciled, hmismatch⟩ := apart ending h
  rintro ⟨program, rfl | rfl⟩
  · exact hreconciled (suffix_unique hending (by decide) hsuffix (suffix_append ..))
  · exact hmismatch (suffix_unique hending (by decide) hsuffix (suffix_append ..))

/-- No output file falls on a trace that is to be read. -/
theorem read_of_input {path : String} (h : ending ∈ inputSuffixes)
    (hsuffix : ending.toList <:+ path.toList)
    (hgrows : FileTree.Grows OutputFiles.IsForSome before after) (hfile : before.isFile path = true) :
    after.read path = before.read path := by
  have proper : ∀ a ∈ inputSuffixes, a ∈ suffixes ∧ '/' ∉ a.toList ∧ a.toList ≠ [] := by decide
  obtain ⟨hending, slashless, hne⟩ := proper ending h
  obtain ⟨bytes, hread⟩ := FileTree.isFile_iff.1 hfile
  obtain ⟨name, hlast, hname⟩ := Path.exists_lastStep?_of_suffix hsuffix slashless hne
  obtain ⟨dot, dots⟩ := ne_dots_of_suffix hending hname
  rw [hread]
  exact hgrows.read hlast dot dots (not_isForSome h hname) hread

theorem read_congr {α : Type} {path : String} (reader : Json.Reader α)
    (h : after.read path = before.read path) : read reader path after = read reader path before := by
  unfold read FileTree.readText
  rw [h]

end TraceFile

/-- The files of a pair are there, and are called as traces are. -/
structure TracePair.IsPaired (files : FileTree) (pair : TracePair) : Prop where
  slashless : '/' ∉ pair.name.toList
  golden : files.isFile pair.golden = true
  goldenSuffix : TraceFile.goldenSuffix.toList <:+ pair.golden.toList
  device : files.isFile pair.device = true
  deviceSuffix : TraceFile.deviceSuffix.toList <:+ pair.device.toList

/-! ## Workers -/

theorem WorkerPool.launch_of_starts (h : pool.Starts workers) (s : Session) :
    pool.launch workers s = .ok () s :=
  Action.ask_of_ok (congrArg (Except.mapError _) h)

theorem WorkerPool.launch_of_refused {reason : String} (h : pool.start workers = .error reason)
    (s : Session) : pool.launch workers s = .error (.workerPool reason) s :=
  Action.ask_of_error (congrArg (Except.mapError _) h)

theorem WorkerPool.not_starts_iff :
    ¬ pool.Starts workers ↔ ∃ reason, pool.start workers = .error reason := by
  unfold Starts
  cases pool.start workers with
  | ok started => simp
  | error reason => simp

/-! ## Batches -/

/-- A pair that is verified later finds its traces as they were. -/
theorem BatchEntry.Settles.of_earlier {middle : FileTree} {entry : BatchEntry}
    (hpair : pair.IsPaired before) (hgrows : FileTree.Grows OutputFiles.IsForSome before middle)
    (h : entry.Settles directory settings middle after pair) :
    entry.Settles directory settings before after pair := by
  obtain ⟨hname, h⟩ := h
  refine ⟨hname, fun report hreport => ?_⟩
  obtain ⟨golden, trace, hgolden, htrace, hrecords⟩ := h report hreport
  refine ⟨golden, trace, ?_, ?_, hrecords⟩
  · rw [← hgolden]
    exact (TraceFile.read_congr _ (TraceFile.read_of_input (by decide) hpair.goldenSuffix hgrows
      hpair.golden)).symm
  · rw [← htrace]
    exact (TraceFile.read_congr _ (TraceFile.read_of_input (by decide) hpair.deviceSuffix hgrows
      hpair.device)).symm

theorem ProgramReport.Records.of_grows {report : ProgramReport} {verification : Verification}
    {written : String → Prop} (h : report.Records directory before verification)
    (slashless : '/' ∉ report.name.toList) (hgrows : FileTree.Grows written before after)
    (hwritten : ∀ file, OutputFiles.IsFor report.name file → ¬ written file) :
    report.Records directory after verification where
  outcome := h.outcome
  stats := h.stats
  mismatches := h.mismatches
  kept := h.kept
  reconciled := TraceFile.read_of_grows slashless (by decide) hgrows (hwritten _ (.inl rfl))
    h.reconciled
  mismatchList := TraceFile.read_of_grows slashless (by decide) hgrows (hwritten _ (.inr rfl))
    h.mismatchList

/-- What was written for a pair stays while files are written for other programs. -/
theorem BatchEntry.Settles.of_later {middle : FileTree} {entry : BatchEntry} {written : String → Prop}
    (h : entry.Settles directory settings before middle pair) (slashless : '/' ∉ pair.name.toList)
    (hgrows : FileTree.Grows written middle after)
    (hwritten : ∀ file, OutputFiles.IsFor pair.name file → ¬ written file) :
    entry.Settles directory settings before after pair := by
  obtain ⟨hname, h⟩ := h
  refine ⟨hname, fun report hreport => ?_⟩
  obtain ⟨golden, trace, hgolden, htrace, hreportName, hrecords⟩ := h report hreport
  rw [← hreportName] at slashless hwritten
  exact ⟨golden, trace, hgolden, htrace, hreportName,
    hrecords.of_grows slashless hgrows hwritten⟩

/-- Pairs of different names, verified one after the other, keep out of each other's way. -/
theorem exists_mapM_runPair {pairs : List TracePair} (hpairs : ∀ pair ∈ pairs, pair.IsPaired before)
    (hnames : (pairs.map (·.name)).Nodup)
    (hbefore : FileTree.Grows OutputFiles.IsForSome before s.files) (directory : String)
    (settings : Settings) :
    ∃ entries s', pairs.mapM (runPair (some directory) settings) s = .ok entries s' ∧
      FileTree.Grows (fun file => ∃ pair ∈ pairs, OutputFiles.IsFor pair.name file)
        s.files s'.files ∧
      entries.map (·.name) = pairs.map (·.name) ∧
      ∀ entry ∈ entries, ∃ pair ∈ pairs, entry.Settles directory settings before s'.files pair := by
  -- The session changes from pair to pair. What is kept of it is that since the batch began, nothing but
  -- output files was written (`hbefore`).
  induction pairs generalizing s with
  | nil => exact ⟨[], s, rfl, FileTree.Grows.refl _, rfl, nofun⟩
  | cons pair rest ih =>
    rw [List.map_cons, List.nodup_cons] at hnames
    obtain ⟨hnotMem, hrest⟩ := hnames
    have hpair := hpairs pair List.mem_cons_self
    obtain ⟨entry, between, hrun, hgrows, hentry⟩ :=
      exists_runPair hpair.slashless directory settings s
    have hsome : FileTree.Grows OutputFiles.IsForSome s.files between.files :=
      hgrows.mono fun file hfile => ⟨pair.name, hfile⟩
    obtain ⟨entries, s', hruns, hgrows', hmap, hentries⟩ := ih
      (fun other hother => hpairs other (List.mem_cons_of_mem _ hother)) hrest (hbefore.trans hsome)
    refine ⟨entry :: entries, s', ?_, ?_, ?_, ?_⟩
    · rw [List.mapM_cons]
      exact Action.bind_eq_ok.2 ⟨entry, between, hrun,
        Action.bind_eq_ok.2 ⟨entries, s', hruns, rfl⟩⟩
    · apply FileTree.Grows.trans
      · exact hgrows.mono fun file hfile => ⟨pair, List.mem_cons_self, hfile⟩
      · exact hgrows'.mono fun file ⟨other, hother, hfile⟩ =>
          ⟨other, List.mem_cons_of_mem _ hother, hfile⟩
    · rw [List.map_cons, List.map_cons, hentry.1, hmap]
    · intro other hother
      rcases List.mem_cons.1 hother with rfl | hother
      · -- A later pair that wrote the files of this one would have its name.
        refine ⟨pair, List.mem_cons_self, ?_⟩
        apply (hentry.of_earlier hpair hbefore).of_later hpair.slashless hgrows'
        rintro file hfile ⟨later, hlater, hfile'⟩
        rw [hfile.program_eq hfile'] at hnotMem
        exact hnotMem (List.mem_map_of_mem hlater)
      · obtain ⟨later, hlater, hsettles⟩ := hentries other hother
        exact ⟨later, List.mem_cons_of_mem _ hlater, hsettles⟩

/-- A session as the first pair of a batch finds it: something is counted, and the files are as before. -/
def Session.started (s : Session) (pairing : Pairing) (workers : Nat) : Session :=
  { s with updates := s.updates ++ Metrics.ofWorkers workers ++
      pairing.skipped.flatMap fun _ => Metrics.ofVerdict .skip }

theorem runPairs_of_mapM {pairing : Pairing} {output : Option String} {entries : List BatchEntry}
    {s' : Session} (hpool : pool.Starts workers)
    (h : pairing.pairs.mapM (runPair output settings) (s.started pairing workers) =
      .ok entries s') :
    runPairs pool pairing output workers settings s = .ok
      { entries := entries.mergeSort fun a b => decide (a.name ≤ b.name)
        skipped := pairing.skipped } s' :=
  Action.bind_eq_ok.2 ⟨(), _, rfl, Action.bind_eq_ok.2 ⟨(), _, rfl,
    Action.bind_eq_ok.2 ⟨(), _, WorkerPool.launch_of_starts hpool _,
      Action.bind_eq_ok.2 ⟨entries, s', h, rfl⟩⟩⟩⟩

/-- Without workers no pair is verified, and the files are as they were. -/
theorem runPairs_of_refused {reason : String} (h : pool.start workers = .error reason)
    (pairing : Pairing) (output : Option String) (settings : Settings) (s : Session) :
    runPairs pool pairing output workers settings s =
      .error (.workerPool reason) (s.started pairing workers) :=
  (Action.bind_of_ok rfl).trans ((Action.bind_of_ok rfl).trans
    (Action.bind_of_error (WorkerPool.launch_of_refused h _)))

/-- A batch gives an entry for each pair, and each report in it is on its own pair. -/
theorem exists_runPairs (hpool : pool.Starts workers) (pairing : Pairing)
    (hpairs : ∀ pair ∈ pairing.pairs, pair.IsPaired s.files)
    (hnames : (pairing.pairs.map (·.name)).Nodup) (directory : String) (settings : Settings) :
    ∃ report s', runPairs pool pairing (some directory) workers settings s = .ok report s' ∧
      (report.entries.map (·.name)).Perm (pairing.pairs.map (·.name)) ∧
      ∀ entry ∈ report.entries, ∃ pair ∈ pairing.pairs,
        entry.Settles directory settings s.files s'.files pair := by
  obtain ⟨entries, s', hruns, -, hmap, hentries⟩ := exists_mapM_runPair
    (s := s.started pairing workers) hpairs hnames (FileTree.Grows.refl _) directory settings
  refine ⟨_, s', runPairs_of_mapM hpool hruns, ?_, ?_⟩
  · rw [← hmap]
    exact (List.mergeSort_perm entries _).map _
  · intro entry hentry
    exact hentries entry (List.mem_mergeSort.1 hentry)

end Lockstep
