import Lockstep.Proofs.Isolation

/-!
# Every golden trace once

A directory of golden traces is taken apart into pairs and skipped traces, each file once and in order
(`Pairing.exists_ofDirectories`). What is looked at is the listing of the directory: a golden trace is a name in
it that is text, and that leads to a file from the directory. A file of another name, or one whose path is too
long for the system, is neither paired nor skipped.

A batch has one entry for each pair. The entries are sorted by the names of the pairs, and since sorting is
stable, those of one name stay in the order of their golden traces (`pairwise_mergeSort_of_ties`). A listener is
told of each entry once (`mapM_runPairTelling`).
-/

namespace Lockstep

variable {s : Session} {goldenDirectory deviceDirectory : String} {files : FileTree}
  {output : Option String} {settings : Settings}

/-! ## Ties -/

/-- Sorting by names leaves what has one name as it stands. -/
theorem filter_mergeSort_on {α : Type} (name : α → String) (l : List α) (c : String) :
    (l.mergeSort fun a b => decide (name a ≤ name b)).filter (name · = c) = l.filter (name · = c) := by
  have hsame : (l.filter (name · = c)).Pairwise fun a b => decide (name a ≤ name b) = true := by
    apply List.pairwise_of_forall_mem_list
    intro a ha b hb
    obtain ⟨-, ha⟩ := List.mem_filter.1 ha
    obtain ⟨-, hb⟩ := List.mem_filter.1 hb
    rw [of_decide_eq_true ha, of_decide_eq_true hb]
    exact decide_eq_true (String.le_refl c)
  have hsublist := (List.sublist_mergeSort (le_trans_on name) (le_total_on name) hsame
    List.filter_sublist).filter (name · = c)
  rw [List.filter_filter] at hsublist
  simp only [Bool.and_self] at hsublist
  exact (hsublist.eq_of_length (((List.mergeSort_perm l _).filter _).length_eq).symm).symm

/-- What is sorted by names stays in the order it was in where names are equal. -/
theorem pairwise_mergeSort_of_ties {α : Type} {before : α → α → Prop} (name : α → String) {l : List α}
    (h : l.Pairwise before) :
    (l.mergeSort fun a b => decide (name a ≤ name b)).Pairwise
      fun a b => name a < name b ∨ name a = name b ∧ before a b := by
  rw [List.pairwise_iff_forall_sublist]
  intro a b hab
  have hle := List.pairwise_iff_forall_sublist.1 (pairwise_mergeSort_on name l) hab
  by_cases heq : name a = name b
  case neg => exact .inl (String.not_le.1 fun hge => heq (String.le_antisymm hle hge))
  case pos =>
    have htie := hab.filter (name · = name b)
    rw [filter_mergeSort_on] at htie
    simp only [List.filter_cons, heq, decide_true, if_true, List.filter_nil] at htie
    exact .inr ⟨heq, List.pairwise_iff_forall_sublist.1 (h.filter _) htie⟩

/-! ## Pairing -/

namespace Pairing

/-- The pair of a golden trace. -/
def pairOf (goldenDirectory deviceDirectory file : String) : TracePair where
  name := Path.baseName (Path.join goldenDirectory file)
  golden := Path.join goldenDirectory file
  device := counterpart deviceDirectory (Path.join goldenDirectory file)

/-- What is noted of a golden trace that is skipped. -/
def skippedOf (goldenDirectory deviceDirectory file : String) : Skipped where
  name := Path.baseName (Path.join goldenDirectory file)
  missing := counterpart deviceDirectory (Path.join goldenDirectory file)

/-- The device trace that belongs to a golden trace is a file. -/
def hasDevice (files : FileTree) (goldenDirectory deviceDirectory file : String) : Bool :=
  files.isFile (counterpart deviceDirectory (Path.join goldenDirectory file))

/-- The golden traces in the listing of a directory are paired or skipped, each of them once and in ascending
order. -/
structure Covers (pairing : Pairing) (files : FileTree) (goldenDirectory deviceDirectory : String)
    (entries : List ByteArray) (golden : List String) : Prop where
  ascending : golden.Pairwise (· < ·)
  mem_iff : ∀ file : String,
    file ∈ golden ↔ file.toUTF8 ∈ entries ∧ IsGolden files goldenDirectory file
  pairs : pairing.pairs = (golden.filter (hasDevice files goldenDirectory deviceDirectory)).map
    (pairOf goldenDirectory deviceDirectory)
  skipped : pairing.skipped =
    (golden.filter (!hasDevice files goldenDirectory deviceDirectory ·)).map
      (skippedOf goldenDirectory deviceDirectory)

/-- The order of the entries: by the names of the programs, and for one name by the golden traces. -/
def EntryOrder (goldenDirectory file other : String) : Prop :=
  Path.baseName (Path.join goldenDirectory file) < Path.baseName (Path.join goldenDirectory other) ∨
    Path.baseName (Path.join goldenDirectory file) = Path.baseName (Path.join goldenDirectory other) ∧
      file < other

theorem ofGolden_map (golden : List String) :
    ofGolden files deviceDirectory (golden.map (Path.join goldenDirectory)) = {
      pairs := (golden.filter (hasDevice files goldenDirectory deviceDirectory)).map
        (pairOf goldenDirectory deviceDirectory)
      skipped := (golden.filter (!hasDevice files goldenDirectory deviceDirectory ·)).map
        (skippedOf goldenDirectory deviceDirectory) } := by
  unfold ofGolden pairOf skippedOf hasDevice
  simp only [List.filter_map, List.map_map, Function.comp_def]

/-- Pairing fails where there is no golden trace. Else each golden trace is paired or skipped. -/
theorem exists_ofDirectories {entries : List ByteArray} (deviceDirectory : String)
    (h : files.listing goldenDirectory = .ok entries) :
    ∃ golden : List String, golden.Pairwise (· < ·) ∧
      (∀ file : String,
        file ∈ golden ↔ file.toUTF8 ∈ entries ∧ IsGolden files goldenDirectory file) ∧
      ofDirectories goldenDirectory deviceDirectory files =
        if golden = [] then .error (.noGoldenTraces goldenDirectory)
        else .ok (ofGolden files deviceDirectory (golden.map (Path.join goldenDirectory))) := by
  obtain ⟨golden, hsorted, hmem, hgolden⟩ := exists_goldenTraces (FileTree.names_of_listing h)
  simp only [FileTree.mem_filterMap_fromUTF8?] at hmem
  refine ⟨golden, hsorted, hmem, ?_⟩
  unfold ofDirectories
  rw [hgolden]
  change (if (golden.map (Path.join goldenDirectory)).isEmpty then _ else _) = _
  cases golden with
  | nil => rfl
  | cons file rest => rfl

theorem ofDirectories_of_listing_error {fault : FileFault}
    (h : files.listing goldenDirectory = .error fault) :
    ofDirectories goldenDirectory deviceDirectory files = .error (.file goldenDirectory fault) := by
  unfold ofDirectories goldenTraces
  rw [h]
  rfl

theorem ofDirectories_eq_noGoldenTraces :
    ofDirectories goldenDirectory deviceDirectory files = .error (.noGoldenTraces goldenDirectory) ↔
      ∃ entries, files.listing goldenDirectory = .ok entries ∧
        ∀ file : String, file.toUTF8 ∈ entries → ¬ IsGolden files goldenDirectory file := by
  cases hentries : files.listing goldenDirectory with
  | error fault => simp [ofDirectories_of_listing_error hentries]
  | ok entries =>
    obtain ⟨golden, -, hmem, hpairing⟩ := exists_ofDirectories deviceDirectory hentries
    have hempty : golden = [] ↔
        ∀ file : String, file.toUTF8 ∈ entries → ¬ IsGolden files goldenDirectory file := by
      simp only [List.eq_nil_iff_forall_not_mem, hmem, not_and]
    rw [hpairing]
    split
    · next hnil => simpa using hempty.1 hnil
    · next hne => simpa using fun hall => hne (hempty.2 hall)

theorem exists_covers {entries : List ByteArray} (deviceDirectory : String)
    (h : files.listing goldenDirectory = .ok entries)
    (hgolden : ∃ file : String, file.toUTF8 ∈ entries ∧ IsGolden files goldenDirectory file) :
    ∃ (pairing : Pairing) (golden : List String),
      ofDirectories goldenDirectory deviceDirectory files = .ok pairing ∧
        pairing.Covers files goldenDirectory deviceDirectory entries golden := by
  obtain ⟨golden, hsorted, hmem, hpairing⟩ := exists_ofDirectories deviceDirectory h
  obtain ⟨file, hfile⟩ := hgolden
  rw [if_neg (List.ne_nil_of_mem ((hmem file).2 hfile)), ofGolden_map] at hpairing
  exact ⟨_, golden, hpairing, hsorted, hmem, rfl, rfl⟩

/-- Two directories can be paired if the first of them can be read and holds a golden trace. -/
theorem exists_ofDirectories_iff (deviceDirectory : String) :
    (∃ pairing, ofDirectories goldenDirectory deviceDirectory files = .ok pairing) ↔
      ∃ entries, files.listing goldenDirectory = .ok entries ∧
        ∃ file : String, file.toUTF8 ∈ entries ∧ IsGolden files goldenDirectory file := by
  constructor
  · rintro ⟨pairing, hpairing⟩
    cases hentries : files.listing goldenDirectory with
    | error fault =>
      rw [ofDirectories_of_listing_error hentries] at hpairing
      cases hpairing
    | ok entries =>
      refine ⟨entries, rfl, ?_⟩
      by_contra hnone
      have hall : ∀ file : String, file.toUTF8 ∈ entries → ¬ IsGolden files goldenDirectory file :=
        fun file hfile hgolden => hnone ⟨file, hfile, hgolden⟩
      rw [ofDirectories_eq_noGoldenTraces.2 ⟨entries, hentries, hall⟩] at hpairing
      cases hpairing
  · rintro ⟨entries, hentries, hgolden⟩
    obtain ⟨pairing, golden, hpairing, -⟩ := exists_covers deviceDirectory hentries hgolden
    exact ⟨pairing, hpairing⟩

end Pairing

/-! ## Listeners -/

section Listeners

variable {σ : Type} {onDone : BatchEntry → σ → σ} {heard : σ} {s' : Session}

theorem telling_bind_of_ok {α β : Type} {telling : StateT σ Action α} {next : α → StateT σ Action β}
    {a : α} {heard' : σ} (h : telling heard s = .ok (a, heard') s') :
    (telling >>= next) heard s = next a heard' s' :=
  Action.bind_of_ok h

theorem lift_of_ok {α : Type} {action : Action α} {a : α} (h : action s = .ok a s') :
    (liftM action : StateT σ Action α) heard s = .ok (a, heard) s' :=
  Action.bind_of_ok h

theorem runPairTelling_of_ok {pair : TracePair} {entry : BatchEntry}
    (h : runPair output settings pair s = .ok entry s') :
    runPairTelling onDone output settings pair heard s = .ok (entry, onDone entry heard) s' :=
  telling_bind_of_ok (lift_of_ok h)

/-- The listener is told of the entries one after the other. -/
theorem mapM_runPairTelling {pairs : List TracePair} {entries : List BatchEntry}
    (h : pairs.mapM (runPair output settings) s = .ok entries s') :
    pairs.mapM (runPairTelling onDone output settings) heard s =
      .ok (entries, entries.foldl (fun heard entry => onDone entry heard) heard) s' := by
  induction pairs generalizing s heard entries with
  | nil =>
    cases h
    rfl
  | cons pair rest ih =>
    rw [List.mapM_cons] at h ⊢
    obtain ⟨entry, between, hrun, h⟩ := Action.bind_eq_ok.1 h
    obtain ⟨others, _, hruns, h⟩ := Action.bind_eq_ok.1 h
    cases h
    exact Action.bind_eq_ok.2 ⟨_, between, runPairTelling_of_ok hrun,
      Action.bind_eq_ok.2 ⟨_, s', ih hruns, rfl⟩⟩

theorem runPairsTelling_of_mapM {pool : WorkerPool} {workers : Nat} {pairing : Pairing}
    {entries : List BatchEntry} (hpool : pool.Starts workers)
    (h : pairing.pairs.mapM (runPair output settings) (s.started pairing workers) =
      .ok entries s') :
    runPairsTelling onDone pool pairing output workers settings heard s =
      .ok ({ entries := entries.mergeSort fun a b => decide (a.name ≤ b.name)
             skipped := pairing.skipped },
        entries.foldl (fun heard entry => onDone entry heard) heard) s' := by
  have hcount (updates : List Metrics.Update) (s : Session) :
      Action.count updates s = .ok () { s with updates := s.updates ++ updates } := rfl
  unfold runPairsTelling
  rw [telling_bind_of_ok (lift_of_ok (hcount _ _)), telling_bind_of_ok (lift_of_ok (hcount _ _)),
    telling_bind_of_ok (lift_of_ok (WorkerPool.launch_of_starts hpool _))]
  exact telling_bind_of_ok (mapM_runPairTelling h)

end Listeners

/-! ## Batches -/

/-- A session in which it was told what is skipped. -/
def Session.paired (s : Session) (pairing : Pairing) : Session :=
  { s with events := s.events ++ pairing.events }

theorem outcome_pairTraces (goldenDirectory deviceDirectory : String) (s : Session) :
    Action.outcome (pairTraces goldenDirectory deviceDirectory s) =
      Pairing.ofDirectories goldenDirectory deviceDirectory s.files := by
  unfold pairTraces
  cases h : Pairing.ofDirectories goldenDirectory deviceDirectory s.files with
  | ok pairing => rw [Action.ask_bind_of_ok h]; rfl
  | error e => rw [Action.ask_bind_of_error h]; rfl

theorem pairTraces_of_ok {pairing : Pairing}
    (h : Pairing.ofDirectories goldenDirectory deviceDirectory s.files = .ok pairing) :
    pairTraces goldenDirectory deviceDirectory s = .ok pairing (s.paired pairing) :=
  Action.ask_bind_of_ok h

theorem BatchEntry.verdict_ne_skip (entry : BatchEntry) : entry.verdict ≠ .skip := by
  unfold verdict ProgramReport.verdict
  repeat' split
  all_goals exact nofun

/-- Each entry is counted once. -/
theorem BatchReport.passed_add_failed_add_errored (report : BatchReport) :
    report.passed + report.failed + report.errored = report.entries.length := by
  unfold passed failed errored count
  induction report.entries with
  | nil => rfl
  | cons entry rest ih =>
    have hskip := entry.verdict_ne_skip
    simp only [List.countP_cons, List.length_cons]
    cases hverdict : entry.verdict with
    | pass =>
      simp
      omega
    | fail =>
      simp
      omega
    | error =>
      simp
      omega
    | skip => exact absurd hverdict hskip

/-- A batch reports on its pairs as if each of them were alone, and tells of each of them. -/
theorem runBatch_alone {pairing : Pairing}
    (h : Pairing.ofDirectories goldenDirectory deviceDirectory s.files = .ok pairing) {σ : Type}
    (onDone : BatchEntry → σ → σ) (heard : σ) (output : Option String) {pool : WorkerPool}
    {workers : Nat} (hpool : pool.Starts workers) (settings : Settings) :
    ∃ s' : Session,
      runBatch pool goldenDirectory deviceDirectory output workers settings s =
        .ok (BatchReport.alone pairing output settings s) s' ∧
      runBatchTelling onDone pool goldenDirectory deviceDirectory output workers settings heard s =
        .ok (BatchReport.alone pairing output settings s,
          (pairing.pairs.map (BatchEntry.alone output settings s)).foldl
            (fun heard entry => onDone entry heard) heard) s' := by
  have hpaired := pairTraces_of_ok h
  obtain ⟨s', hruns, -⟩ := exists_mapM_alone (s := (s.paired pairing).started pairing workers)
    (Pairing.isPaired h) output settings
  have hfiles : ((s.paired pairing).started pairing workers).files = s.files := rfl
  rw [(BatchEntry.alone_congr output settings hfiles).1] at hruns
  refine ⟨s', ?_, ?_⟩
  · exact (Action.bind_of_ok hpaired).trans (runPairs_of_mapM hpool hruns)
  · exact (telling_bind_of_ok (lift_of_ok hpaired)).trans (runPairsTelling_of_mapM hpool hruns)

/-- Among the entries of one name, the order of the golden traces is kept. -/
theorem exists_order_alone {paired : List String} (hsorted : paired.Pairwise (· < ·))
    (goldenDirectory deviceDirectory : String) (output : Option String) (settings : Settings)
    (s : Session) :
    ∃ order : List String, order.Perm paired ∧
      order.Pairwise (Pairing.EntryOrder goldenDirectory) ∧
      ((paired.map (Pairing.pairOf goldenDirectory deviceDirectory)).map
          (BatchEntry.alone output settings s)).mergeSort (fun a b => decide (a.name ≤ b.name)) =
        order.map (fun file => BatchEntry.alone output settings s
          (Pairing.pairOf goldenDirectory deviceDirectory file)) := by
  refine ⟨_, List.mergeSort_perm paired _, pairwise_mergeSort_of_ties
    (fun file => Path.baseName (Path.join goldenDirectory file)) hsorted, ?_⟩
  rw [List.map_map]
  symm
  apply List.map_mergeSort
  intro a _ b _
  rfl

/-- No golden trace is lost, and none is counted twice. Each one is paired or skipped, and the entries are
those of the pairs, sorted by name. Each of them is counted in one of three ways, and told once. -/
theorem runBatch_covers_golden (goldenDirectory deviceDirectory : String) (s : Session) :
    (Action.outcome (pairTraces goldenDirectory deviceDirectory s) =
        .error (.noGoldenTraces goldenDirectory) ↔
      ∃ entries, s.files.listing goldenDirectory = .ok entries ∧
        ∀ file : String, file.toUTF8 ∈ entries →
          ¬ Pairing.IsGolden s.files goldenDirectory file) ∧
    (∀ fault, s.files.listing goldenDirectory = .error fault →
      Action.outcome (pairTraces goldenDirectory deviceDirectory s) =
        .error (.file goldenDirectory fault)) ∧
    ∀ entries, s.files.listing goldenDirectory = .ok entries →
      (∃ file : String, file.toUTF8 ∈ entries ∧
        Pairing.IsGolden s.files goldenDirectory file) →
      ∃ (pairing : Pairing) (golden : List String),
        Action.outcome (pairTraces goldenDirectory deviceDirectory s) = .ok pairing ∧
        pairing.Covers s.files goldenDirectory deviceDirectory entries golden ∧
        ∀ {σ : Type} (onDone : BatchEntry → σ → σ) (heard : σ) (output : Option String)
            (pool : WorkerPool) (workers : Nat), pool.Starts workers → ∀ settings : Settings,
          ∃ (report : BatchReport) (s' : Session) (order : List String) (told : List BatchEntry),
            runBatch pool goldenDirectory deviceDirectory output workers settings s =
              .ok report s' ∧
            runBatchTelling onDone pool goldenDirectory deviceDirectory output workers settings
                heard s =
              .ok (report, told.foldl (fun heard entry => onDone entry heard) heard) s' ∧
            order.Perm
              (golden.filter (Pairing.hasDevice s.files goldenDirectory deviceDirectory)) ∧
            order.Pairwise (Pairing.EntryOrder goldenDirectory) ∧
            report.entries = order.map (fun file => BatchEntry.alone output settings s
              (Pairing.pairOf goldenDirectory deviceDirectory file)) ∧
            told.Perm report.entries ∧
            report.passed + report.failed + report.errored = report.entries.length ∧
            report.skipped = pairing.skipped := by
  rw [outcome_pairTraces]
  refine ⟨Pairing.ofDirectories_eq_noGoldenTraces,
    fun fault hfault => Pairing.ofDirectories_of_listing_error hfault,
    fun entries hlisting hgolden => ?_⟩
  obtain ⟨pairing, golden, hpairing, hcovers⟩ :=
    Pairing.exists_covers deviceDirectory hlisting hgolden
  refine ⟨pairing, golden, hpairing, hcovers,
    fun onDone heard output pool workers hpool settings => ?_⟩
  obtain ⟨s', hrun, htelling⟩ := runBatch_alone hpairing onDone heard output hpool settings
  obtain ⟨order, hperm, horder, hentries⟩ := exists_order_alone
    (hcovers.ascending.filter (Pairing.hasDevice s.files goldenDirectory deviceDirectory))
    goldenDirectory deviceDirectory output settings s
  rw [← hcovers.pairs] at hentries
  exact ⟨_, s', order, _, hrun, htelling, hperm, horder, hentries,
    (BatchReport.alone_perm _ output settings s).symm,
    BatchReport.passed_add_failed_add_errored _, rfl⟩

/-- A golden trace whose name begins with a byte that begins no character. -/
def strayTrace : FileTree.Stray where
  within := ["g"]
  name := ⟨#[0xFF]⟩ ++ TraceFile.goldenSuffix.toUTF8
  node := .file "[]".toUTF8
  notText := by decide +kernel

/-- The file of `a-b` comes before that of `a`, and the entry of `a` before that of `a-b`. -/
def mixedPrograms : Session where
  files := { traceFiles [("notes.txt", ""), ("a.spike.json", "[]"), ("a-b.spike.json", "[]")]
      [("a-b.fragmented.json", emptyTrace), ("a.fragmented.json", "")] with
    strays := [strayTrace]
    straysApart := List.nodup_singleton _ }

theorem runBatch_covers_golden_of_mixed :
    (∃ entries, mixedPrograms.files.listing "g" = .ok entries ∧ strayTrace.name ∈ entries ∧
      ∃ file : String, file.toUTF8 ∈ entries ∧ Pairing.IsGolden mixedPrograms.files "g" file) ∧
      WorkerPool.unlimited.Starts 2 ∧
      "a-b.spike.json" < "a.spike.json" ∧
      Pairing.EntryOrder "g" "a.spike.json" "a-b.spike.json" ∧
      ∃ report s', runBatchTelling (fun _ done => done + 1) .unlimited "g" "d" none 2 {} 0
          mixedPrograms = .ok (report, report.entries.length) s' ∧
        report.passed + report.failed + report.errored = report.entries.length := by
  have hlisting : mixedPrograms.files.listing "g" = .ok
      ["a-b.spike.json".toUTF8, "a.spike.json".toUTF8, "notes.txt".toUTF8, strayTrace.name] := by
    decide +kernel
  have hgolden : Pairing.IsGolden mixedPrograms.files "g" "a.spike.json" :=
    ⟨by decide +kernel, by decide +kernel⟩
  have hpool := WorkerPool.starts_unlimited 2
  refine ⟨⟨_, hlisting, by simp, _, by simp, hgolden⟩, hpool, by decide +kernel,
    .inl (by decide +kernel), ?_⟩
  obtain ⟨-, -, hcovers⟩ := runBatch_covers_golden "g" "d" mixedPrograms
  obtain ⟨pairing, golden, -, -, hruns⟩ := hcovers _ hlisting ⟨_, by simp, hgolden⟩
  obtain ⟨report, s', order, told, -, htelling, -, -, -, htold, hcount, -⟩ :=
    hruns (fun _ done => done + 1) 0 none .unlimited 2 hpool {}
  refine ⟨report, s', ?_, hcount⟩
  rw [htelling, ← htold.length_eq, List.foldl_add_const]
  simp

/-! ## What is overlooked -/

/-- A directory holds a file of that name, whether or not a path leads there. -/
def FileTree.HoldsFile (tree : FileTree) (directory : String) (name : ByteArray) : Prop :=
  ∃ place bytes, tree.locate directory = .ok place ∧
    ((∃ text : String, text.toUTF8 = name ∧ tree.find? (place ++ [text]) = some (.file bytes)) ∨
      ∃ stray ∈ tree.strays, stray.within = place ∧ stray.name = name ∧ stray.node = .file bytes)

/-- Where two paths lead to the same, the same is listed. -/
theorem FileTree.listing_congr {tree : FileTree} {path other : String}
    (h : tree.locate path = tree.locate other) : tree.listing path = tree.listing other := by
  unfold listing names node
  rw [h]

theorem Pairing.not_isGolden_of_long {file : String}
    (h : FileTree.pathLimit < (Path.join goldenDirectory file).utf8ByteSize) :
    ¬ IsGolden files goldenDirectory file := by
  rintro ⟨-, hfile⟩
  obtain ⟨bytes, hread⟩ := FileTree.isFile_iff.1 hfile
  obtain ⟨place, hlocate, -⟩ := FileTree.read_eq_ok.1 hread
  obtain ⟨hfault, -⟩ := FileTree.descend_of_locate hlocate
  unfold FileTree.pathFault? at hfault
  rw [if_pos h] at hfault
  split at hfault
  · cases hfault
  · split at hfault <;> cases hfault

/-- The directory `g`, with slashes behind its name. -/
def slashed : Nat → String
  | 0 => "g"
  | n + 1 => (slashed n).push '/'

theorem toList_slashed (n : Nat) : (slashed n).toList = 'g' :: List.replicate n '/' := by
  induction n with
  | zero => rfl
  | succ n ih => rw [slashed, String.toList_push, ih, List.replicate_succ', List.cons_append]

theorem utf8ByteSize_slashed (n : Nat) : (slashed n).utf8ByteSize = n + 1 := by
  induction n with
  | zero => rfl
  | succ n ih =>
    rw [slashed, String.utf8ByteSize_push, ih]
    rfl

theorem isAbsolute_slashed (n : Nat) : Path.isAbsolute (slashed n) = false := by
  rw [Bool.eq_false_iff, ne_eq, Path.isAbsolute_iff, toList_slashed, List.cons_prefix_cons]
  exact fun h => absurd h.1 (by decide)

theorem isEmpty_slashed (n : Nat) : (slashed n).isEmpty = false := by
  rw [Bool.eq_false_iff, ne_eq, String.isEmpty_iff, ← String.utf8ByteSize_eq_zero_iff,
    utf8ByteSize_slashed]
  exact Nat.succ_ne_zero n

theorem endsWith_slashed (n : Nat) : (slashed (n + 1)).endsWith "/" = true := by
  rw [endsWith_iff, slashed, String.toList_push]
  exact List.suffix_append ..

theorem steps_slashed (n : Nat) : Path.steps (slashed n) = ["g"] := by
  induction n with
  | zero => decide +kernel
  | succ n ih =>
    have hslash : (slashed (n + 1)).toList = (slashed n).toList ++ '/' :: [] :=
      String.toList_push ..
    rw [Path.steps_of_slash hslash, String.ofList_toList, ih]
    rfl

theorem join_slashed (n : Nat) {file : String} (slashless : '/' ∉ file.toList) :
    Path.join (slashed (n + 1)) file = slashed (n + 1) ++ file := by
  unfold Path.join
  rw [Path.isAbsolute_eq_false slashless, isEmpty_slashed, endsWith_slashed]
  rfl

/-- More slashes change nothing, as long as the path is not too long. -/
theorem FileTree.locate_slashed (tree : FileTree) {n : Nat} (hn : n + 1 < pathLimit) :
    tree.locate (slashed (n + 1)) = tree.descend [] ["g", "."] := by
  have hnul : (slashed (n + 1)).toList.contains '\x00' = false := by
    simp [toList_slashed]
  have hfault : pathFault? (slashed (n + 1)) = none := by
    unfold pathFault?
    rw [isEmpty_slashed, hnul, utf8ByteSize_slashed, if_neg nofun, if_neg nofun,
      if_neg (Nat.not_lt.2 hn)]
  have horigin : origin (slashed (n + 1)) = [] := by
    rw [origin, isAbsolute_slashed, if_neg nofun]
  unfold locate
  rw [hfault, endsWith_slashed, steps_slashed, horigin]
  rfl

/-- The only golden trace has a name that is not text. -/
def strayPrograms : Session where
  files := { traceFiles [] [("a.fragmented.json", emptyTrace)] with
    strays := [strayTrace]
    straysApart := List.nodup_singleton _ }

def singleProgram : Session where
  files := traceFiles [("a.spike.json", "[]")] [("a.fragmented.json", emptyTrace)]

/-- There are files in a readable directory that are called as golden traces are, and there are said to be none:
the name of the one is not text, and the path of the other is too long for the system, although that of its
directory is not. -/
theorem golden_trace_overlooked :
    (∃ entries, strayPrograms.files.listing "g" = .ok entries ∧ strayTrace.name ∈ entries ∧
      strayPrograms.files.HoldsFile "g" strayTrace.name ∧
      TraceFile.goldenSuffix.toUTF8.toList <:+ strayTrace.name.toList ∧
      Action.outcome (pairTraces "g" "d" strayPrograms) = .error (.noGoldenTraces "g")) ∧
    ∃ entries, singleProgram.files.listing (slashed 4085) = .ok entries ∧
      "a.spike.json".toUTF8 ∈ entries ∧
      singleProgram.files.HoldsFile (slashed 4085) "a.spike.json".toUTF8 ∧
      Action.outcome (pairTraces (slashed 4085) "d" singleProgram) =
        .error (.noGoldenTraces (slashed 4085)) := by
  simp only [outcome_pairTraces, Pairing.ofDirectories_eq_noGoldenTraces]
  constructor
  · have hlisting : strayPrograms.files.listing "g" = .ok [strayTrace.name] := by decide +kernel
    refine ⟨_, hlisting, List.mem_singleton_self _, ?_, by decide +kernel, _, hlisting, ?_⟩
    · exact ⟨["g"], "[]".toUTF8, by decide +kernel, .inr ⟨strayTrace, List.mem_singleton_self _, rfl,
        rfl, rfl⟩⟩
    · intro file hfile
      have hname : strayTrace.name = file.toUTF8 := (List.mem_singleton.1 hfile).symm
      have htext := strayTrace.notText
      rw [hname, fromUTF8?_eq_some.2 rfl] at htext
      cases htext
  · have hlocate (n : Nat) (hn : n + 1 < FileTree.pathLimit) :=
      singleProgram.files.locate_slashed hn
    have hlisting : singleProgram.files.listing (slashed 4085) = .ok ["a.spike.json".toUTF8] := by
      rw [FileTree.listing_congr ((hlocate 4084 (by decide)).trans (hlocate 0 (by decide)).symm)]
      decide +kernel
    refine ⟨_, hlisting, List.mem_singleton_self _, ?_, _, hlisting, ?_⟩
    · refine ⟨["g"], "[]".toUTF8, (hlocate 4084 (by decide)).trans ?_, .inl ⟨_, rfl, ?_⟩⟩
      · decide +kernel
      · decide +kernel
    · intro file hfile
      obtain rfl : file = "a.spike.json" := by
        have h := fromUTF8?_eq_some.2 (List.mem_singleton.1 hfile)
        rw [fromUTF8?_eq_some.2 rfl] at h
        exact (Option.some.inj h).symm
      apply Pairing.not_isGolden_of_long
      rw [join_slashed 4084 (by decide), String.utf8ByteSize_append, utf8ByteSize_slashed]
      decide +kernel

end Lockstep
