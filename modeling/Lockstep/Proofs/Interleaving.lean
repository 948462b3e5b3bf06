import Lockstep.Proofs.Batches
import Lockstep.Proofs.Directories

/-!
# Pairs that take turns

The workers of a batch share one tree of files, so between two steps of one verification there may be steps
of others. A `Stage` says how far the verification of a pair has come, and `Stage.next` takes the step that
follows: it reads a trace, makes the directory or writes a file. A whole verification is its steps, one after
the other (`solo_verifyPair`).

What a step does hangs on the files it finds. `Stage.next_agrees` is the step lemma: among files that other pairs
have written to, a step comes to the same end as among the files that were there before, and changes the same
places. It needs no more than that the traces are called as traces are, and that the output directory, once
it was made for one pair, is there for all.
-/

namespace Lockstep

variable {pair : TracePair} {output : Option String} {settings : Settings}
  {before made files : FileTree} {directory : String} {written : String → Prop}

/-! ## Stages -/

/-- How far the verification of a pair has come. -/
inductive Stage where
  /-- Nothing is done yet. -/
  | begun
  | goldenRead (golden : List GoldenEntry)
  /-- Both traces are read, and the device trace is verified. -/
  | verified (verification : Verification)
  /-- The directory for the output files is there. -/
  | prepared (directory : String) (verification : Verification)
  /-- The reconciled trace is kept, and the mismatches are not. -/
  | halfKept (directory : String) (verification : Verification)
  | done (result : Except Error ProgramReport)

namespace Stage

/-- Change the files and go on to another stage, or end with the cause why they cannot be changed. -/
def changing (stage : Stage) (change : FileTree → Except Error FileTree) (files : FileTree) :
    Stage × FileTree :=
  match change files with
  | .ok files => (stage, files)
  | .error e => (done (.error e), files)

/-- Take the next step. -/
def next (pair : TracePair) (output : Option String) (settings : Settings) :
    Stage → FileTree → Stage × FileTree
  | begun, files =>
    match TraceFile.readGolden pair.golden files with
    | .ok golden => (goldenRead golden, files)
    | .error e => (done (.error e), files)
  | goldenRead golden, files =>
    match TraceFile.readDevice pair.device files with
    | .ok trace => (verified (verify golden trace settings), files)
    | .error e => (done (.error e), files)
  | verified v, files =>
    match output with
    | some directory => (prepared directory v).changing
        (fun files => (files.createDirectories directory).mapError (.file directory)) files
    | none => (done (.ok (v.report pair.name none)), files)
  | prepared directory v, files => (halfKept directory v).changing
      (TraceFile.write (OutputFiles.within directory pair.name).reconciled
        (OutputFiles.reconciledJson v.reconciliation.entries)) files
  | halfKept directory v, files =>
    (done (.ok (v.report pair.name (some (OutputFiles.within directory pair.name))))).changing
      (TraceFile.write (OutputFiles.within directory pair.name).mismatches
        (OutputFiles.mismatchesJson v.mismatches)) files
  | done result, files => (done result, files)

/-- The steps of a verification that nothing comes between. -/
def solo (pair : TracePair) (output : Option String) (settings : Settings) (files : FileTree) :
    Nat → Stage × FileTree
  | 0 => (begun, files)
  | n + 1 =>
    let (stage, files) := solo pair output settings files n
    next pair output settings stage files

/-- How many steps a verification takes at most. -/
def length : Nat := 5

/-- What is done stays done. -/
theorem solo_add_of_done {n : Nat} {result : Except Error ProgramReport} {after : FileTree}
    (h : solo pair output settings files n = (done result, after)) (more : Nat) :
    solo pair output settings files (n + more) = (done result, after) := by
  induction more with
  | zero => exact h
  | succ more ih =>
    rw [← Nat.add_assoc, solo, ih]
    rfl

/-- Keeping the output files is three steps. -/
theorem solo_write {n : Nat} {v : Verification} (s : Session)
    (h : solo pair output settings s.files n = (verified v, s.files))
    (houtput : output = some directory) :
    solo pair output settings s.files (n + 3) =
      match OutputFiles.write directory pair.name v.reconciliation.entries v.mismatches s with
      | .ok outputs s' => (done (.ok (v.report pair.name (some outputs))), s'.files)
      | .error e s' => (done (.error e), s'.files) := by
  subst houtput
  unfold OutputFiles.write
  cases hmake : (s.files.createDirectories directory).mapError (Error.file directory) with
  | error e =>
    have hdone : solo pair (some directory) settings s.files (n + 1) = (done (.error e), s.files) := by
      simp only [solo, h, next, changing, hmake]
    rw [Action.change_bind_of_error hmake, solo_add_of_done hdone 2]
  | ok made =>
    have hmade : solo pair (some directory) settings s.files (n + 1) =
        (prepared directory v, made) := by
      simp only [solo, h, next, changing, hmake]
    rw [Action.change_bind_of_ok hmake]
    cases hfirst : TraceFile.write (OutputFiles.within directory pair.name).reconciled
        (OutputFiles.reconciledJson v.reconciliation.entries) made with
    | error e =>
      have hdone : solo pair (some directory) settings s.files (n + 2) = (done (.error e), made) := by
        rw [solo, hmade]
        simp only [next, changing, hfirst]
      rw [Action.change_bind_of_error hfirst, solo_add_of_done hdone 1]
    | ok half =>
      have hhalf : solo pair (some directory) settings s.files (n + 2) =
          (halfKept directory v, half) := by
        rw [solo, hmade]
        simp only [next, changing, hfirst]
      rw [Action.change_bind_of_ok hfirst, solo, hhalf]
      cases hsecond : TraceFile.write (OutputFiles.within directory pair.name).mismatches
          (OutputFiles.mismatchesJson v.mismatches) half with
      | error e =>
        rw [Action.change_bind_of_error hsecond]
        simp only [next, changing, hsecond]
      | ok after =>
        rw [Action.change_bind_of_ok hsecond]
        simp only [next, changing, hsecond]
        rfl

/-- A verification ends at the first trace that cannot be read. -/
theorem solo_of_not_read {e : Error} (h : pair.traces files = .error e) :
    solo pair output settings files length = (done (.error e), files) := by
  unfold TracePair.traces at h
  cases hgolden : TraceFile.readGolden pair.golden files with
  | error e' =>
    rw [hgolden] at h
    cases h
    have hdone : solo pair output settings files 1 = (done (.error e), files) := by
      simp only [solo, next, hgolden]
    exact solo_add_of_done hdone 4
  | ok golden =>
    cases htrace : TraceFile.readDevice pair.device files with
    | error e' =>
      rw [hgolden, htrace] at h
      cases h
      have hdone : solo pair output settings files 2 = (done (.error e), files) := by
        simp only [solo, next, hgolden, htrace]
      exact solo_add_of_done hdone 3
    | ok trace =>
      rw [hgolden, htrace] at h
      cases h

/-- A verification is its steps. -/
theorem solo_verifyPair (pair : TracePair) (output : Option String) (settings : Settings)
    (s : Session) :
    solo pair output settings s.files length =
      (done (Action.outcome (verifyPair pair output settings s)),
        Action.filesAfter (verifyPair pair output settings s)) := by
  cases htraces : pair.traces s.files with
  | error e =>
    rw [verifyPair_of_not_read output settings htraces]
    exact solo_of_not_read htraces
  | ok traces =>
    obtain ⟨golden, trace⟩ := traces
    obtain ⟨hgolden, htrace⟩ := TracePair.traces_eq_ok.1 htraces
    have hverified : solo pair output settings s.files 2 =
        (verified (verify golden trace settings), s.files) := by
      simp only [solo, next, hgolden, htrace]
    obtain ⟨told, hfiles, -, hkeep⟩ := verifyPair_of_read output settings htraces
    rw [hkeep, ← hfiles]
    rw [← hfiles] at hverified
    cases output with
    | none =>
      have hdone : solo pair none settings told.files 3 =
          (done (.ok ((verify golden trace settings).report pair.name none)), told.files) := by
        rw [solo, hverified]
        rfl
      exact solo_add_of_done hdone 2
    | some directory =>
      rw [Verification.keep_some]
      apply (solo_write told hverified rfl).trans
      cases OutputFiles.write directory pair.name
          (verify golden trace settings).reconciliation.entries
          (verify golden trace settings).mismatches told with
      | ok outputs after => rfl
      | error e after => rfl

end Stage

/-! ## Writing among others -/

open FileTree (Overlays Prepared Reached)
open OutputFiles (IsFor IsForSome)

/-- Whether an output file can be written, and to which place, is settled by the directory. -/
theorem TraceFile.write_of_overlays {program ending : String} (slashless : '/' ∉ program.toList)
    (h : ending ∈ suffixes) (hholds : made.Holds directory) (value : Json) :
    (∃ e, ∀ files, Overlays IsForSome made files →
      write (Path.join directory (program ++ ending)) value files = .error e) ∨
    ∃ place, place.getLast? = some (program ++ ending) ∧ made.find? place ≠ some .directory ∧
      ∀ files, Overlays IsForSome made files →
        write (Path.join directory (program ++ ending)) value files =
          .ok (files.insert place (.file value.text.toUTF8)) := by
  have proper : ∀ a ∈ suffixes, '/' ∉ a.toList ∧ a ≠ "" := by decide
  obtain ⟨hslash, hne⟩ := proper ending h
  obtain ⟨dot, dots⟩ := ne_dots_of_suffix h (suffix_append program ending)
  have hslashless : '/' ∉ (program ++ ending).toList := by
    rw [String.toList_append, List.mem_append]
    exact not_or.2 ⟨slashless, hslash⟩
  have hname : program ++ ending ≠ "" := fun hempty => hne (String.append_eq_empty_iff.1 hempty).2
  have hwrite (files : FileTree) (hfiles : Overlays IsForSome made files) :
      write (Path.join directory (program ++ ending)) value files =
        ((made.target (Path.join directory (program ++ ending))).map fun place =>
          files.insert place (.file value.text.toUTF8)).mapError
            (.file (Path.join directory (program ++ ending))) := by
    rw [write, FileTree.write_eq_map_target, hfiles.target_join hholds hslashless hname]
  cases htarget : made.target (Path.join directory (program ++ ending)) with
  | error fault =>
    refine .inl ⟨.file (Path.join directory (program ++ ending)) fault, fun files hfiles => ?_⟩
    rw [hwrite files hfiles, htarget]
    rfl
  | ok place =>
    obtain ⟨hlast, hfree⟩ := FileTree.of_target_join hslashless hname dot dots htarget
    refine .inr ⟨place, hlast, hfree, fun files hfiles => ?_⟩
    rw [hwrite files hfiles, htarget]
    rfl

/-- A trace is read as before, whatever the other pairs have done. -/
theorem TracePair.IsPaired.read_of_reached (hpair : pair.IsPaired before)
    (h : Reached IsForSome before output files) :
    TraceFile.readGolden pair.golden files = TraceFile.readGolden pair.golden before ∧
      TraceFile.readDevice pair.device files = TraceFile.readDevice pair.device before := by
  constructor
  · exact TraceFile.read_congr _
      (TraceFile.read_of_input (by decide) hpair.goldenSuffix h.grows hpair.golden)
  · exact TraceFile.read_congr _
      (TraceFile.read_of_input (by decide) hpair.deviceSuffix h.grows hpair.device)

/-! ## Steps -/

namespace Stage

/-- What the files of a pair alone can be at a stage. -/
def Alone (pair : TracePair) (output : Option String) (before files : FileTree) : Stage → Prop
  | begun | goldenRead _ | verified _ => files = before
  | prepared directory _ | halfKept directory _ =>
    output = some directory ∧ Prepared (IsFor pair.name) before directory files
  | done _ => Reached (IsFor pair.name) before output files

/-- What the files of a batch can be while one of its pairs is at a stage. -/
def Shared (output : Option String) (before files : FileTree) : Stage → Prop
  | prepared directory _ | halfKept directory _ =>
    output = some directory ∧ Prepared IsForSome before directory files
  | _ => Reached IsForSome before output files

/-- A step of a pair changes the same places in the files of the pair alone and in those of a batch. -/
inductive Alike (pair : TracePair) (output : Option String) (before : FileTree) :
    (alone alone' files files' : FileTree) → Prop
  | read (alone files : FileTree) : Alike pair output before alone alone files files
  /-- In a batch, the directory may be there already. -/
  | make {directory : String} {made files files' : FileTree} (houtput : output = some directory)
      (hmade : before.createDirectories directory = .ok made)
      (hfiles : files = before ∧ files' = made ∨ Overlays IsForSome made files ∧ files' = files) :
      Alike pair output before before made files files'
  | write {directory file : String} {made alone files : FileTree} {place : FileTree.Place}
      (bytes : ByteArray) (houtput : output = some directory)
      (hmade : before.createDirectories directory = .ok made)
      (hfree : made.find? place ≠ some .directory) (hlast : place.getLast? = some file)
      (hfor : IsFor pair.name file) (halone : Overlays (IsFor pair.name) made alone)
      (hfiles : Overlays IsForSome made files) :
      Alike pair output before alone (alone.insert place (.file bytes)) files
        (files.insert place (.file bytes))

variable {alone : FileTree} {stage : Stage}

theorem Alone.reached (h : stage.Alone pair output before files) :
    Reached (IsFor pair.name) before output files := by
  cases stage with
  | begun => exact .inl h
  | goldenRead golden => exact .inl h
  | verified v => exact .inl h
  | prepared directory v => exact h.2.reached h.1
  | halfKept directory v => exact h.2.reached h.1
  | done result => exact h

theorem Shared.reached (h : stage.Shared output before files) :
    Reached IsForSome before output files := by
  cases stage with
  | begun => exact h
  | goldenRead golden => exact h
  | verified v => exact h
  | prepared directory v => exact h.2.reached h.1
  | halfKept directory v => exact h.2.reached h.1
  | done result => exact h

/-- Once the directory is there, it is there for the pairs at every stage. -/
theorem Shared.of_prepared {files' : FileTree} (h : stage.Shared output before files)
    (houtput : output = some directory) (h' : Prepared IsForSome before directory files') :
    stage.Shared output before files' := by
  cases stage with
  | begun => exact h'.reached houtput
  | goldenRead golden => exact h'.reached houtput
  | verified v => exact h'.reached houtput
  | prepared other v =>
    obtain rfl : other = directory := Option.some.inj (h.1.symm.trans houtput)
    exact ⟨houtput, h'⟩
  | halfKept other v =>
    obtain rfl : other = directory := Option.some.inj (h.1.symm.trans houtput)
    exact ⟨houtput, h'⟩
  | done result => exact h'.reached houtput

/-- A step of one pair leaves the others where they are. -/
theorem Shared.of_alike {alone' files' : FileTree} (h : stage.Shared output before files)
    (hstep : Alike pair output before alone alone' files files') :
    stage.Shared output before files' := by
  cases hstep with
  | read => exact h
  | make houtput hmade hfiles =>
    rcases hfiles with ⟨-, rfl⟩ | ⟨-, rfl⟩
    · exact h.of_prepared houtput ⟨files', hmade, Overlays.refl _⟩
    · exact h
  | write bytes houtput hmade hfree hlast hfor halone hfiles =>
    exact h.of_prepared houtput ⟨_, hmade, hfiles.insert hfree hlast ⟨pair.name, hfor⟩ bytes⟩

/-- A step comes to the same end in the files of a pair alone and in those of a batch. -/
structure Agrees (pair : TracePair) (output : Option String) (before alone files : FileTree)
    (result result' : Stage × FileTree) : Prop where
  stage_eq : result'.1 = result.1
  of_alone : result.1.Alone pair output before result.2
  of_shared : result'.1.Shared output before result'.2
  alike : Alike pair output before alone result.2 files result'.2

theorem changing_write_agrees {ending : String} (value : Json) (slashless : '/' ∉ pair.name.toList)
    (h : ending ∈ TraceFile.suffixes) (hfor : IsFor pair.name (pair.name ++ ending))
    (houtput : output = some directory) (hmade : before.createDirectories directory = .ok made)
    (halone : Overlays (IsFor pair.name) made alone) (hfiles : Overlays IsForSome made files)
    (haloneNext : ∀ tree, Prepared (IsFor pair.name) before directory tree →
      stage.Alone pair output before tree)
    (hsharedNext : ∀ tree, Prepared IsForSome before directory tree →
      stage.Shared output before tree) :
    Agrees pair output before alone files
      (stage.changing (TraceFile.write (Path.join directory (pair.name ++ ending)) value) alone)
      (stage.changing (TraceFile.write (Path.join directory (pair.name ++ ending)) value) files) := by
  have hsome : Overlays IsForSome made alone := halone.mono fun file hfile => ⟨pair.name, hfile⟩
  rcases TraceFile.write_of_overlays slashless h (FileTree.holds_of_createDirectories hmade) value
    with ⟨e, hwrite⟩ | ⟨place, hlast, hfree, hwrite⟩
  · simp only [changing, hwrite alone hsome, hwrite files hfiles]
    exact ⟨rfl, .inr ⟨directory, houtput, made, hmade, halone⟩,
      .inr ⟨directory, houtput, made, hmade, hfiles⟩, .read alone files⟩
  · simp only [changing, hwrite alone hsome, hwrite files hfiles]
    exact ⟨rfl, haloneNext _ ⟨made, hmade, halone.insert hfree hlast hfor _⟩,
      hsharedNext _ ⟨made, hmade, hfiles.insert hfree hlast ⟨pair.name, hfor⟩ _⟩,
      .write _ houtput hmade hfree hlast hfor halone hfiles⟩

theorem changing_make_agrees (v : Verification) (houtput : output = some directory)
    (hshared : Reached IsForSome before output files) :
    Agrees pair output before before files
      ((prepared directory v).changing
        (fun files => (files.createDirectories directory).mapError (.file directory)) before)
      ((prepared directory v).changing
        (fun files => (files.createDirectories directory).mapError (.file directory)) files) := by
  cases hmade : before.createDirectories directory with
  | error fault =>
    -- The directory was made for no pair, so nothing has changed.
    have hsame : files = before := by
      rcases hshared with hsame | ⟨other, hother, made, hmade', -⟩
      · exact hsame
      · obtain rfl : directory = other := Option.some.inj (houtput.symm.trans hother)
        rw [hmade] at hmade'
        cases hmade'
    subst hsame
    simp only [changing, hmade, Except.mapError]
    exact ⟨rfl, .inl rfl, .inl rfl, .read files files⟩
  | ok made =>
    rcases hshared with rfl | ⟨other, hother, made', hmade', hfiles⟩
    · simp only [changing, hmade, Except.mapError]
      exact ⟨rfl, ⟨houtput, made, hmade, Overlays.refl _⟩, ⟨houtput, made, hmade, Overlays.refl _⟩,
        .make houtput hmade (.inl ⟨rfl, rfl⟩)⟩
    · obtain rfl : directory = other := Option.some.inj (houtput.symm.trans hother)
      obtain rfl : made = made' := Except.ok.inj (hmade.symm.trans hmade')
      have hagain : files.createDirectories directory = .ok files :=
        (hfiles.grows.holds (FileTree.holds_of_createDirectories hmade)).createDirectories
      simp only [changing, hmade, hagain, Except.mapError]
      exact ⟨rfl, ⟨houtput, made, hmade, Overlays.refl _⟩, ⟨houtput, made, hmade, hfiles⟩,
        .make houtput hmade (.inr ⟨hfiles, rfl⟩)⟩

/-- The step lemma, with a case for each stage. -/
theorem next_agrees (settings : Settings) (hpair : pair.IsPaired before)
    (halone : stage.Alone pair output before alone) (hshared : stage.Shared output before files) :
    Agrees pair output before alone files (next pair output settings stage alone)
      (next pair output settings stage files) := by
  obtain ⟨hgolden, hdevice⟩ := hpair.read_of_reached hshared.reached
  cases stage with
  | begun =>
    obtain rfl : alone = before := halone
    simp only [next, hgolden]
    cases TraceFile.readGolden pair.golden alone with
    | ok golden => exact ⟨rfl, rfl, hshared, .read alone files⟩
    | error e => exact ⟨rfl, .inl rfl, hshared, .read alone files⟩
  | goldenRead golden =>
    obtain rfl : alone = before := halone
    simp only [next, hdevice]
    cases TraceFile.readDevice pair.device alone with
    | ok trace => exact ⟨rfl, rfl, hshared, .read alone files⟩
    | error e => exact ⟨rfl, .inl rfl, hshared, .read alone files⟩
  | verified v =>
    obtain rfl : alone = before := halone
    cases output with
    | none => exact ⟨rfl, .inl rfl, hshared, .read alone files⟩
    | some directory => exact changing_make_agrees v rfl hshared
  | prepared directory v =>
    obtain ⟨houtput, made, hmade, halone⟩ := halone
    obtain ⟨-, made', hmade', hfiles⟩ := hshared
    obtain rfl : made = made' := Except.ok.inj (hmade.symm.trans hmade')
    exact changing_write_agrees _ hpair.slashless (by decide) (.inl rfl) houtput hmade halone hfiles
      (fun tree h => ⟨houtput, h⟩) (fun tree h => ⟨houtput, h⟩)
  | halfKept directory v =>
    obtain ⟨houtput, made, hmade, halone⟩ := halone
    obtain ⟨-, made', hmade', hfiles⟩ := hshared
    obtain rfl : made = made' := Except.ok.inj (hmade.symm.trans hmade')
    exact changing_write_agrees _ hpair.slashless (by decide) (.inr rfl) houtput hmade halone hfiles
      (fun tree h => h.reached houtput) (fun tree h => h.reached houtput)
  | done result => exact ⟨rfl, halone, hshared, .read alone files⟩

end Stage
end Lockstep
