import Mathlib.Data.List.Nodup
import Lockstep.Proofs.Batches

/-!
# Names of pairs

A pair is named after its program, and what is kept of it is called by that name. The name ends at the first
dot of the golden trace's name, so the golden traces of `a` and of `a.b` make two pairs of one name, with one
device trace and the same output files. As long as no program has a dot in its name, nothing of a name is lost
(`Pairing.names_nodup`), and pairs of different names do not meet: whatever the order in which they are
verified, each report is on its own two traces and is kept in files of its own.
-/

namespace Lockstep

/-! ## Sorting by names -/

section Sorting

variable {α : Type} (name : α → String)

theorem le_trans_on (a b c : α) (hab : decide (name a ≤ name b) = true)
    (hbc : decide (name b ≤ name c) = true) : decide (name a ≤ name c) = true :=
  decide_eq_true (String.le_trans (of_decide_eq_true hab) (of_decide_eq_true hbc))

theorem le_total_on (a b : α) : (decide (name a ≤ name b) || decide (name b ≤ name a)) = true := by
  simpa using String.le_total (name a) (name b)

/-- What is sorted by its names is in the order of its names. -/
theorem pairwise_mergeSort_on (l : List α) :
    (l.mergeSort fun a b => decide (name a ≤ name b)).Pairwise (name · ≤ name ·) :=
  (List.pairwise_mergeSort (le_trans_on name) (le_total_on name) l).imp of_decide_eq_true

end Sorting

/-! ## Names in directories -/

namespace FileTree

variable {tree : FileTree}

theorem places_nodup (tree : FileTree) : (tree.entries.map (·.1.2)).Nodup := by
  have hkeys : tree.entries.map Prod.fst = (tree.entries.map (·.1.2)).map key := by
    rw [List.map_map]
    exact List.map_congr_left fun entry hentry => (tree.proper entry hentry).1
  apply List.Nodup.of_map key
  rw [← hkeys]
  exact tree.distinct

/-- A name stands once in a directory. -/
theorem nodup_of_names {path : String} {found : List String} (h : tree.names path = .ok found) :
    found.Nodup := by
  obtain ⟨node, -, h⟩ := bind_eq_ok.1 h
  split at h
  · cases h
  · obtain ⟨place, -, h⟩ := bind_eq_ok.1 h
    cases h
    -- What is no longer seen of a place is the directory, and that is the same for all.
    have hplaces := List.filterMap_map (f := (·.1.2)) (g := fun p : Place =>
      if p.dropLast = place then p.getLast? else none) (l := tree.entries)
    apply Eq.subst hplaces
    apply (places_nodup tree).filterMap
    intro p q name hp hq
    split at hp
    case isFalse => cases hp
    case isTrue hpPlace =>
      split at hq
      case isFalse => cases hq
      case isTrue hqPlace =>
        rw [← List.dropLast_append_getLast? name hp, ← List.dropLast_append_getLast? name hq,
          hpPlace, hqPlace]

/-- The names that are text are those of the listing that are. -/
theorem names_eq_listing (tree : FileTree) (path : String) :
    tree.names path = (tree.listing path).map (·.filterMap String.fromUTF8?) := by
  unfold listing
  cases hnames : tree.names path with
  | error fault => rfl
  | ok names =>
    obtain ⟨node, hnode, -⟩ := bind_eq_ok.1 hnames
    obtain ⟨place, hplace, -⟩ := bind_eq_ok.1 hnode
    have htexts : (names.map String.toUTF8).filterMap String.fromUTF8? = names := by
      rw [List.filterMap_map]
      exact (List.filterMap_congr fun name _ => fromUTF8?_eq_some.2 rfl).trans List.filterMap_some
    have hstrays : ((tree.strays.filter (·.within = place)).map (·.name)).filterMap
        String.fromUTF8? = [] := by
      rw [List.filterMap_map, List.filterMap_eq_nil_iff]
      exact fun stray _ => stray.notText
    rw [hplace]
    change _ = Except.ok (List.filterMap _ (_ ++ _))
    rw [List.filterMap_append, htexts, hstrays, List.append_nil]

theorem names_of_listing {path : String} {entries : List ByteArray}
    (h : tree.listing path = .ok entries) :
    tree.names path = .ok (entries.filterMap String.fromUTF8?) := by
  rw [names_eq_listing, h]
  rfl

theorem mem_filterMap_fromUTF8? {entries : List ByteArray} {file : String} :
    file ∈ entries.filterMap String.fromUTF8? ↔ file.toUTF8 ∈ entries := by
  simp only [List.mem_filterMap, fromUTF8?_eq_some, exists_eq_right']

end FileTree

namespace Pairing

variable {files : FileTree} {goldenDirectory deviceDirectory : String} {pairing : Pairing}

/-- A file of a directory is a golden trace. -/
def IsGolden (files : FileTree) (directory file : String) : Prop :=
  file.endsWith TraceFile.goldenSuffix = true ∧ files.isFile (Path.join directory file) = true

theorem goldenTraces_of_names {found : List String} (h : files.names goldenDirectory = .ok found) :
    goldenTraces files goldenDirectory = .ok (((found.filter fun name =>
        name.endsWith TraceFile.goldenSuffix && files.isFile (Path.join goldenDirectory name)).mergeSort
      fun a b => decide (a ≤ b)).map (Path.join goldenDirectory)) := by
  rw [FileTree.names_eq_listing] at h
  unfold goldenTraces
  cases hlisting : files.listing goldenDirectory with
  | error fault =>
    rw [hlisting] at h
    cases h
  | ok entries =>
    rw [hlisting] at h
    cases h
    rfl

theorem names_of_goldenTraces {traces : List String}
    (h : goldenTraces files goldenDirectory = .ok traces) :
    ∃ found, files.names goldenDirectory = .ok found := by
  obtain ⟨entries, hentries, -⟩ := bind_eq_ok.1 h
  exact ⟨_, FileTree.names_of_listing (mapError_eq_ok.1 hentries)⟩

/-- The golden traces of a directory, each once and in order. -/
theorem exists_goldenTraces {found : List String} (h : files.names goldenDirectory = .ok found) :
    ∃ golden : List String, golden.Pairwise (· < ·) ∧
      (∀ file, file ∈ golden ↔ file ∈ found ∧ IsGolden files goldenDirectory file) ∧
      goldenTraces files goldenDirectory = .ok (golden.map (Path.join goldenDirectory)) := by
  have hnodup := (FileTree.nodup_of_names h).filter fun name =>
    name.endsWith TraceFile.goldenSuffix && files.isFile (Path.join goldenDirectory name)
  refine ⟨_, ?_, ?_, goldenTraces_of_names h⟩
  · -- Ascending and without repetitions is strictly ascending.
    refine ((pairwise_mergeSort_on id _).and ((List.mergeSort_perm _ _).nodup_iff.2 hnodup)).imp ?_
    rintro a b ⟨hle, hne⟩
    exact String.not_le.1 fun hge => hne (String.le_antisymm hle hge)
  · intro file
    rw [List.mem_mergeSort, List.mem_filter, Bool.and_eq_true, IsGolden]

/-- The names of the golden traces that are paired, and the pairs. -/
theorem ofDirectories_eq_ok
    (h : ofDirectories goldenDirectory deviceDirectory files = .ok pairing) :
    ∃ found golden : List String, files.names goldenDirectory = .ok found ∧
      golden.Pairwise (· < ·) ∧
      (∀ file, file ∈ golden ↔ file ∈ found ∧ IsGolden files goldenDirectory file) ∧
      pairing = ofGolden files deviceDirectory (golden.map (Path.join goldenDirectory)) := by
  obtain ⟨traces, htraces, h⟩ := bind_eq_ok.1 h
  obtain ⟨found, hfound⟩ := names_of_goldenTraces htraces
  obtain ⟨golden, hsorted, hmem, hgolden⟩ := exists_goldenTraces hfound
  obtain rfl := Except.ok.inj (hgolden.symm.trans htraces)
  split at h
  · cases h
  · cases h
    exact ⟨found, golden, hfound, hsorted, hmem, rfl⟩

/-- A directory that holds nothing but golden traces, with their names in order. -/
theorem ofDirectories_of_sorted {names : List String} (hnames : files.names goldenDirectory = .ok names)
    (hne : names ≠ []) (hsorted : names.Pairwise (· ≤ ·))
    (hfiles : (names.all (fun name => name.endsWith TraceFile.goldenSuffix &&
        files.isFile (Path.join goldenDirectory name)) &&
      decide (ofGolden files deviceDirectory (names.map (Path.join goldenDirectory)) = pairing)) =
        true) :
    ofDirectories goldenDirectory deviceDirectory files = .ok pairing := by
  obtain ⟨hgolden, hpairing⟩ := (Bool.and_eq_true ..).mp hfiles
  have hall := List.filter_eq_self.2 (List.all_eq_true.1 hgolden)
  have hsort := List.mergeSort_of_pairwise (hsorted.imp fun hle => decide_eq_true hle)
  have htraces : goldenTraces files goldenDirectory = .ok (names.map (Path.join goldenDirectory)) := by
    rw [goldenTraces_of_names hnames, hall, hsort]
  refine bind_eq_ok.2 ⟨_, htraces, ?_⟩
  rw [if_neg]
  · exact congrArg Except.ok (of_decide_eq_true hpairing)
  · simpa using hne

theorem isPaired (h : ofDirectories goldenDirectory deviceDirectory files = .ok pairing) :
    ∀ pair ∈ pairing.pairs, pair.IsPaired files := by
  obtain ⟨found, golden, -, -, hmem, rfl⟩ := ofDirectories_eq_ok h
  intro pair hpair
  obtain ⟨path, hpath, rfl⟩ := List.mem_map.1 hpair
  obtain ⟨hpath, hdevice⟩ := List.mem_filter.1 hpath
  obtain ⟨file, hfile, rfl⟩ := List.mem_map.1 hpath
  obtain ⟨-, hsuffix, hfile⟩ := (hmem file).1 hfile
  constructor
  all_goals dsimp only
  · exact Path.slash_not_mem_baseName _
  · exact hfile
  · exact ((endsWith_iff ..).1 hsuffix).trans (Path.suffix_join goldenDirectory file)
  · exact hdevice
  · have hname := suffix_append (Path.baseName (Path.join goldenDirectory file)) TraceFile.deviceSuffix
    exact hname.trans (Path.suffix_join deviceDirectory _)

/-! ## Distinct names -/

/-- The golden traces in a directory are called after programs without a dot in their names. -/
def Undotted (files : FileTree) (directory : String) : Prop :=
  ∀ found, files.names directory = .ok found → ∀ file ∈ found,
    file.endsWith TraceFile.goldenSuffix = true →
      ∃ program, file = program ++ TraceFile.goldenSuffix ∧
        '.' ∉ program.toList ∧ '/' ∉ program.toList

theorem baseName_join {program : String} (directory : String) (dotless : '.' ∉ program.toList)
    (slashless : '/' ∉ program.toList) :
    Path.baseName (Path.join directory (program ++ TraceFile.goldenSuffix)) = program :=
  Path.baseName_of_lastStep? (TraceFile.lastStep?_join_append directory slashless (by decide))
    dotless rfl (by decide)

/-- If no name has a dot, then nothing of a name is lost. -/
theorem names_nodup (h : ofDirectories goldenDirectory deviceDirectory files = .ok pairing)
    (undotted : Undotted files goldenDirectory) :
    (pairing.pairs.map (·.name)).Nodup ∧
      ∀ pair ∈ pairing.pairs,
        pair.golden = Path.join goldenDirectory (pair.name ++ TraceFile.goldenSuffix) := by
  obtain ⟨found, golden, hfound, hsorted, hmem, rfl⟩ := ofDirectories_eq_ok h
  -- From the name of a pair, the name of its golden trace is found again.
  have hbase (file : String) (hfile : file ∈ golden) :
      file = Path.baseName (Path.join goldenDirectory file) ++ TraceFile.goldenSuffix := by
    obtain ⟨hfile, hsuffix, -⟩ := (hmem file).1 hfile
    obtain ⟨program, rfl, dotless, slashless⟩ := undotted found hfound file hfile hsuffix
    rw [baseName_join goldenDirectory dotless slashless]
  constructor
  · rw [ofGolden, List.map_map, List.filter_map, List.map_map]
    have hnodup : golden.Nodup := hsorted.imp String.ne_of_lt
    apply (hnodup.filter _).map_on
    intro file hfile other hother heq
    simp only [Function.comp_apply] at heq
    rw [hbase file (List.mem_filter.1 hfile).1, heq, ← hbase other (List.mem_filter.1 hother).1]
  · intro pair hpair
    obtain ⟨path, hpath, rfl⟩ := List.mem_map.1 hpair
    obtain ⟨file, hfile, rfl⟩ := List.mem_map.1 (List.mem_filter.1 hpath).1
    dsimp only
    rw [← hbase file hfile]

theorem device_eq (h : ofDirectories goldenDirectory deviceDirectory files = .ok pairing) :
    ∀ pair ∈ pairing.pairs,
      pair.device = Path.join deviceDirectory (pair.name ++ TraceFile.deviceSuffix) := by
  obtain ⟨found, golden, -, -, -, rfl⟩ := ofDirectories_eq_ok h
  intro pair hpair
  obtain ⟨path, -, rfl⟩ := List.mem_map.1 hpair
  dsimp only
  rw [counterpart]

/-- Pairs of different names have different device traces. -/
theorem devices_nodup (h : ofDirectories goldenDirectory deviceDirectory files = .ok pairing)
    (hnames : (pairing.pairs.map (·.name)).Nodup) : (pairing.pairs.map (·.device)).Nodup := by
  apply hnames.of_map.map_on
  intro pair hpair other hother heq
  apply List.inj_on_of_nodup_map hnames hpair hother
  have hlast (pair : TracePair) (hpair : pair ∈ pairing.pairs) :
      Path.lastStep? pair.device = some (pair.name ++ TraceFile.deviceSuffix) := by
    rw [device_eq h pair hpair]
    exact TraceFile.lastStep?_join_append deviceDirectory (isPaired h pair hpair).slashless (by decide)
  have hdevice := hlast pair hpair
  rw [heq, hlast other hother, Option.some.injEq, String.append_left_inj] at hdevice
  exact hdevice.symm

end Pairing

/-- The names are different if no program has a dot in its name, and then each golden trace is paired with
the device trace of its own program. Pairs of different names have files of their own for what is reported
on them, in whatever order they are verified. -/
theorem runPairs_settles {s : Session} {goldenDirectory deviceDirectory : String} {pairing : Pairing}
    (h : Pairing.ofDirectories goldenDirectory deviceDirectory s.files = .ok pairing) :
    (Pairing.Undotted s.files goldenDirectory →
      (pairing.pairs.map (·.name)).Nodup ∧
      ∀ pair ∈ pairing.pairs,
        pair.golden = Path.join goldenDirectory (pair.name ++ TraceFile.goldenSuffix) ∧
        pair.device = Path.join deviceDirectory (pair.name ++ TraceFile.deviceSuffix)) ∧
    ((pairing.pairs.map (·.name)).Nodup →
      (pairing.pairs.map (·.device)).Nodup ∧
      ∀ order : List TracePair, order.Perm pairing.pairs →
        ∀ (pool : WorkerPool) (workers : Nat), pool.Starts workers → ∀ directory settings,
          ∃ report s', runPairs pool { pairing with pairs := order } (some directory) workers
              settings s = .ok report s' ∧
            (report.entries.map (·.name)).Perm (pairing.pairs.map (·.name)) ∧
            ∀ entry ∈ report.entries, ∃ pair ∈ pairing.pairs,
              entry.Settles directory settings s.files s'.files pair) := by
  constructor
  · intro undotted
    obtain ⟨hnames, hgolden⟩ := Pairing.names_nodup h undotted
    exact ⟨hnames, fun pair hpair => ⟨hgolden pair hpair, Pairing.device_eq h pair hpair⟩⟩
  · intro hnames
    refine ⟨Pairing.devices_nodup h hnames,
      fun order horder pool workers hpool directory settings => ?_⟩
    have hpairs : ∀ pair ∈ order, pair.IsPaired s.files := fun pair hpair =>
      Pairing.isPaired h pair (horder.mem_iff.1 hpair)
    have hdistinct : (order.map (·.name)).Nodup := (horder.map _).nodup_iff.2 hnames
    obtain ⟨report, s', hrun, hperm, hentries⟩ := exists_runPairs hpool
      { pairing with pairs := order } hpairs hdistinct directory settings
    refine ⟨report, s', hrun, hperm.trans (horder.map _), fun entry hentry => ?_⟩
    obtain ⟨pair, hpair, hsettles⟩ := hentries entry hentry
    exact ⟨pair, horder.mem_iff.1 hpair, hsettles⟩

/-- A directory `g` of golden traces, and a directory `d` of device traces. -/
def traceFiles (golden device : List (String × String)) : FileTree :=
  let put (directory : String) (tree : FileTree) (file : String × String) : FileTree :=
    tree.insert [directory, file.1] (.file file.2.toUTF8)
  let directories := (FileTree.empty.insert ["g"] .directory).insert ["d"] .directory
  device.foldl (put "d") (golden.foldl (put "g") directories)

/-- A device trace without events. -/
def emptyTrace : String := "\x7b\"fetches\": [], \"regfile_commits\": [], \"memory_accesses\": []\x7d"

def twoPrograms : Session where
  files := traceFiles [("b.spike.json", "[]"), ("a.spike.json", "[]")]
    [("a.fragmented.json", emptyTrace), ("b.fragmented.json", emptyTrace)]

def twoPairs : Pairing where
  pairs := [⟨"a", "g/a.spike.json", "d/a.fragmented.json"⟩,
    ⟨"b", "g/b.spike.json", "d/b.fragmented.json"⟩]

theorem runPairs_settles_of_two :
    Pairing.ofDirectories "g" "d" twoPrograms.files = .ok twoPairs ∧
      (twoPairs.pairs.map (·.name)).Nodup ∧
      ∃ report s', runPairs .unlimited twoPairs (some "out") 2 {} twoPrograms = .ok report s' ∧
        (report.entries.map (·.name)).Perm ["a", "b"] ∧
        ∀ entry ∈ report.entries, entry.result.isOk = true ∧
          ∃ pair ∈ twoPairs.pairs, entry.Settles "out" {} twoPrograms.files s'.files pair := by
  have hnames : twoPrograms.files.names "g" = .ok ["a.spike.json", "b.spike.json"] := by
    decide +kernel
  have hpairing : Pairing.ofDirectories "g" "d" twoPrograms.files = .ok twoPairs := by
    apply Pairing.ofDirectories_of_sorted hnames (by decide) (by decide +kernel)
    decide +kernel
  have undotted : Pairing.Undotted twoPrograms.files "g" := by
    intro found hfound file hfile _
    rw [hnames] at hfound
    cases hfound
    rcases List.mem_cons.1 hfile with rfl | hfile
    · exact ⟨"a", by decide⟩
    · rw [List.mem_singleton.1 hfile]
      exact ⟨"b", by decide⟩
  have hdistinct := ((runPairs_settles hpairing).1 undotted).1
  obtain ⟨-, hruns⟩ := (runPairs_settles hpairing).2 hdistinct
  obtain ⟨report, s', hrun, hperm, hentries⟩ :=
    hruns _ (List.Perm.refl _) .unlimited 2 (WorkerPool.starts_unlimited 2) "out" {}
  have hok : (match twoPairs.pairs.mapM (runPair (some "out") {}) (twoPrograms.started twoPairs 2) with
      | .ok entries _ => entries.all (·.result.isOk)
      | .error _ _ => false) = true := by
    decide +kernel
  refine ⟨hpairing, hdistinct, report, s', hrun, hperm, fun entry hentry => ⟨?_, hentries entry hentry⟩⟩
  split at hok
  case h_1 entries final hmapM =>
    rw [runPairs_of_mapM (WorkerPool.starts_unlimited 2) hmapM] at hrun
    cases hrun
    exact List.all_eq_true.1 hok entry (List.mem_mergeSort.1 hentry)
  case h_2 => cases hok

/-! ## Dots in names -/

/-- The file that an entry names for its mismatches holds them. -/
def BatchEntry.isKept (files : FileTree) (entry : BatchEntry) : Bool :=
  match entry.result with
  | .ok { mismatches, files := some outputs, .. } =>
    decide ((files.node outputs.mismatches).toOption =
      some (.file (OutputFiles.mismatchesJson mismatches).text.toUTF8))
  | _ => true

/-- The golden trace of `a.b` expects a register that the device did not write. -/
def dottedPrograms : Session where
  files := traceFiles
    [("a.spike.json", "[]"),
      ("a.b.spike.json",
        "[\x7b\"pc\": 0, \"instr\": 0, \"target_reg\": 1, \"reg_val\": 1\x7d]")]
    [("a.fragmented.json",
      "\x7b\"fetches\": [[0, 0]], \"regfile_commits\": [], \"memory_accesses\": []\x7d")]

def dottedPairing : Pairing where
  pairs := [⟨"a", "g/a.b.spike.json", "d/a.fragmented.json"⟩,
    ⟨"a", "g/a.spike.json", "d/a.fragmented.json"⟩]

/-- The programs `a` and `a.b` are taken for one: both are checked against one device trace, and what was
found for `a.b` is lost when the files for `a` are written. -/
theorem names_collide_of_dot :
    ∃ pairing, Pairing.ofDirectories "g" "d" dottedPrograms.files = .ok pairing ∧
      ¬ (pairing.pairs.map (·.name)).Nodup ∧ ¬ (pairing.pairs.map (·.device)).Nodup ∧
      ∃ report s', runPairs .unlimited pairing (some "out") 1 {} dottedPrograms = .ok report s' ∧
        ∃ entry ∈ report.entries, entry.isKept s'.files = false := by
  have hnames : dottedPrograms.files.names "g" = .ok ["a.b.spike.json", "a.spike.json"] := by
    decide +kernel
  have hpairing : Pairing.ofDirectories "g" "d" dottedPrograms.files = .ok dottedPairing := by
    apply Pairing.ofDirectories_of_sorted hnames (by decide) (by decide +kernel)
    decide +kernel
  have hlost : (match dottedPairing.pairs.mapM (runPair (some "out") {})
        (dottedPrograms.started dottedPairing 1) with
      | .ok entries s' => entries.any (!·.isKept s'.files)
      | .error _ _ => false) = true := by
    decide +kernel
  split at hlost
  case h_1 entries s' hentries =>
    obtain ⟨entry, hentry, hkept⟩ := List.any_eq_true.1 hlost
    refine ⟨dottedPairing, hpairing, by decide, by decide, _, s',
      runPairs_of_mapM (WorkerPool.starts_unlimited 1) hentries, entry,
      List.mem_mergeSort.2 hentry, by simpa using hkept⟩
  case h_2 => cases hlost

end Lockstep
