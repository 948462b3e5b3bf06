import Lockstep.Batch
import Lockstep.Proofs.Files

/-!
# What a verification does to the files

Actions are put together from few kinds of steps, and of these only the ones that write change the files.
`Action.Writes` bounds what an action does to them, whether it ends in a value or in an error, and composes
along the steps of an action. `Action.bind_eq_ok` takes an action that gave a value apart.

With these, one pair is treated: it writes no files but its own two (`verifyPair_writes`), and if it gives a
report, then these two hold what the report says (`records_of_verifyPair`).
-/

namespace Lockstep

variable {α β : Type} {written : String → Prop} {s s' : Session}

/-! ## Actions -/

namespace Action

theorem bind_eq_ok {action : Action α} {next : α → Action β} {b : β} :
    (action >>= next) s = .ok b s' ↔
      ∃ a between, action s = .ok a between ∧ next a between = .ok b s' := by
  change EStateM.bind action next s = _ ↔ _
  unfold EStateM.bind
  cases action s with
  | ok a between => simp
  | error e between => simp

theorem bind_of_ok {action : Action α} {next : α → Action β} {a : α} (h : action s = .ok a s') :
    (action >>= next) s = next a s' := by
  change EStateM.bind action next s = _
  simp only [EStateM.bind, h]

theorem bind_of_error {action : Action α} {next : α → Action β} {e : Error}
    (h : action s = .error e s') : (action >>= next) s = .error e s' := by
  change EStateM.bind action next s = _
  simp only [EStateM.bind, h]

theorem ask_of_ok {question : FileTree → Except Error α} {a : α} (h : question s.files = .ok a) :
    ask question s = .ok a s := by
  simp only [ask, h]

theorem ask_of_error {question : FileTree → Except Error α} {e : Error}
    (h : question s.files = .error e) : ask question s = .error e s := by
  simp only [ask, h]

theorem ask_bind_of_ok {question : FileTree → Except Error α} {next : α → Action β} {a : α}
    (h : question s.files = .ok a) : (ask question >>= next) s = next a s := bind_of_ok (ask_of_ok h)

theorem ask_bind_of_error {question : FileTree → Except Error α} {next : α → Action β} {e : Error}
    (h : question s.files = .error e) : (ask question >>= next) s = .error e s :=
  bind_of_error (ask_of_error h)

theorem ask_bind_eq_ok {question : FileTree → Except Error α} {next : α → Action β} {b : β} :
    (ask question >>= next) s = .ok b s' ↔
      ∃ a, question s.files = .ok a ∧ next a s = .ok b s' := by
  cases h : question s.files with
  | ok a => simp [ask_bind_of_ok h]
  | error e => simp [ask_bind_of_error h]

theorem change_of_ok {f : FileTree → Except Error FileTree} {files : FileTree}
    (h : f s.files = .ok files) : change f s = .ok () { s with files } := by
  simp only [change, h]

theorem change_of_error {f : FileTree → Except Error FileTree} {e : Error}
    (h : f s.files = .error e) : change f s = .error e s := by
  simp only [change, h]

theorem change_bind_of_ok {f : FileTree → Except Error FileTree} {next : Unit → Action β}
    {files : FileTree} (h : f s.files = .ok files) :
    (change f >>= next) s = next () { s with files } := bind_of_ok (change_of_ok h)

theorem change_bind_of_error {f : FileTree → Except Error FileTree} {next : Unit → Action β}
    {e : Error} (h : f s.files = .error e) : (change f >>= next) s = .error e s :=
  bind_of_error (change_of_error h)

theorem files_of_change {f : FileTree → Except Error FileTree} {u : Unit}
    (h : change f s = .ok u s') : f s.files = .ok s'.files := by
  unfold change at h
  split at h
  · next hfiles =>
    cases h
    exact hfiles
  · cases h

/-- The files that an action leaves. -/
def filesAfter : EStateM.Result Error Session α → FileTree
  | .ok _ s => s.files
  | .error _ s => s.files

/-- What is counted after an action. -/
def updatesAfter : EStateM.Result Error Session α → Array Metrics.Update
  | .ok _ s => s.updates
  | .error _ s => s.updates

/-- What came of an action. -/
def outcome : EStateM.Result Error Session α → Except Error α
  | .ok a _ => .ok a
  | .error e _ => .error e

theorem outcome_eq_ok {action : Action α} {a : α} :
    outcome (action s) = .ok a ↔ ∃ s', action s = .ok a s' := by
  cases action s with
  | ok b s' => simp [outcome]
  | error e s' => simp [outcome]

/-- An attempt gives the outcome of the action, whatever that is. -/
theorem exists_attempt (action : Action α) (s : Session) :
    ∃ s', action.attempt s = .ok (outcome (action s)) s' ∧
      s'.files = filesAfter (action s) ∧ s'.updates = updatesAfter (action s) := by
  unfold attempt
  cases action s with
  | ok a s' => exact ⟨s', rfl, rfl, rfl⟩
  | error e s' => exact ⟨s', rfl, rfl, rfl⟩

/-- However an action ends, it takes nothing away, and writes only files with certain names. -/
def Writes (written : String → Prop) (action : Action α) : Prop :=
  ∀ s, FileTree.Grows written s.files (filesAfter (action s))

namespace Writes

theorem of_filesAfter {action : Action α} (h : ∀ s, filesAfter (action s) = s.files) :
    Writes written action := by
  intro s
  rw [h]
  exact FileTree.Grows.refl _

theorem pure (a : α) : Writes written (pure a : Action α) := of_filesAfter fun _ => rfl

theorem bind {action : Action α} {next : α → Action β} (h : Writes written action)
    (hnext : ∀ a, Writes written (next a)) : Writes written (action >>= next) := by
  intro s
  have hfirst := h s
  cases haction : action s with
  | ok a between =>
    rw [haction] at hfirst
    rw [bind_of_ok haction]
    exact hfirst.trans (hnext a between)
  | error e between =>
    rw [haction] at hfirst
    rw [bind_of_error haction]
    exact hfirst

theorem tell (events : List Event) : Writes written (tell events) := of_filesAfter fun _ => rfl

theorem count (updates : List Metrics.Update) : Writes written (count updates) :=
  of_filesAfter fun _ => rfl

theorem ask (question : FileTree → Except Error α) : Writes written (ask question) := by
  apply of_filesAfter
  intro s
  cases hquestion : question s.files with
  | ok a => rw [ask_of_ok hquestion, filesAfter]
  | error e => rw [ask_of_error hquestion, filesAfter]

theorem change {f : FileTree → Except Error FileTree}
    (h : ∀ before after, f before = .ok after → FileTree.Grows written before after) :
    Writes written (change f) := by
  intro s
  cases hafter : f s.files with
  | ok after =>
    rw [change_of_ok hafter]
    exact h s.files after hafter
  | error e =>
    rw [change_of_error hafter]
    exact FileTree.Grows.refl _

end Writes

end Action

/-! ## Output files -/

namespace OutputFiles

/-- A file is called as the output files of a program are. -/
def IsFor (program file : String) : Prop :=
  file = program ++ TraceFile.reconciledSuffix ∨ file = program ++ TraceFile.mismatchSuffix

theorem IsFor.exists_suffix {program file : String} (h : IsFor program file) :
    ∃ ending ∈ TraceFile.suffixes, ending.toList <:+ file.toList ∧ file = program ++ ending := by
  rcases h with rfl | rfl
  · exact ⟨TraceFile.reconciledSuffix, by decide, suffix_append .., rfl⟩
  · exact ⟨TraceFile.mismatchSuffix, by decide, suffix_append .., rfl⟩

/-- An output file belongs to one program. -/
theorem IsFor.program_eq {program other file : String} (h : IsFor program file)
    (h' : IsFor other file) : program = other := by
  obtain ⟨ending, hending, hsuffix, hfile⟩ := h.exists_suffix
  obtain ⟨ending', hending', hsuffix', hfile'⟩ := h'.exists_suffix
  obtain rfl := TraceFile.suffix_unique hending hending' hsuffix hsuffix'
  exact (String.append_left_inj ending).1 (hfile.symm.trans hfile')

end OutputFiles

namespace TraceFile

variable {directory program ending : String} {before after : FileTree}

theorem write_grows {value : Json} (slashless : '/' ∉ program.toList) (h : ending ∈ suffixes)
    (hwrite : write (Path.join directory (program ++ ending)) value before = .ok after) :
    FileTree.Grows (· = program ++ ending) before after := by
  obtain ⟨dot, dots⟩ := ne_dots_of_suffix h (suffix_append program ending)
  exact FileTree.write_grows (lastStep?_join_append directory slashless h) dot dots
    (mapError_eq_ok.1 hwrite)

theorem read_of_write {path : String} {value : Json} (hwrite : write path value before = .ok after) :
    after.read path = .ok value.text.toUTF8 :=
  FileTree.read_of_write (mapError_eq_ok.1 hwrite)

/-- A file that is called after a program is kept while others are written. -/
theorem read_of_grows {bytes : ByteArray} (slashless : '/' ∉ program.toList)
    (h : ending ∈ suffixes) (hgrows : FileTree.Grows written before after)
    (hwritten : ¬ written (program ++ ending))
    (hread : before.read (Path.join directory (program ++ ending)) = .ok bytes) :
    after.read (Path.join directory (program ++ ending)) = .ok bytes := by
  obtain ⟨dot, dots⟩ := ne_dots_of_suffix h (suffix_append program ending)
  exact hgrows.read (lastStep?_join_append directory slashless h) dot dots hwritten hread

/-- A file is kept while another kind of file is written. -/
theorem read_of_other_kind {path other ending' : String} {value : Json} {bytes : ByteArray}
    (h : ending ∈ suffixes) (h' : ending' ∈ suffixes) (hne : ending ≠ ending')
    (hpath : ending.toList <:+ path.toList) (hother : ending'.toList <:+ other.toList)
    (hwrite : write other value before = .ok after) (hread : before.read path = .ok bytes) :
    after.read path = .ok bytes := by
  have proper : ∀ a ∈ suffixes, '/' ∉ a.toList ∧ a.toList ≠ [] := by decide
  obtain ⟨name, hlast, hname⟩ :=
    Path.exists_lastStep?_of_suffix hpath (proper ending h).1 (proper ending h).2
  obtain ⟨name', hlast', hname'⟩ :=
    Path.exists_lastStep?_of_suffix hother (proper ending' h').1 (proper ending' h').2
  obtain ⟨dot, dots⟩ := ne_dots_of_suffix h hname
  obtain ⟨dot', dots'⟩ := ne_dots_of_suffix h' hname'
  have hgrows := FileTree.write_grows hlast' dot' dots' (mapError_eq_ok.1 hwrite)
  apply hgrows.read hlast dot dots _ hread
  rintro rfl
  exact hne (suffix_unique h h' hname hname')

end TraceFile

namespace OutputFiles

variable {directory program : String} {entries : List ReconciledEntry} {mismatches : List Mismatch}

theorem write_writes (slashless : '/' ∉ program.toList) :
    Action.Writes (IsFor program) (write directory program entries mismatches) := by
  have hfile (ending : String) (value : Json) (h : ending ∈ TraceFile.suffixes)
      (hfor : IsFor program (program ++ ending)) :
      Action.Writes (IsFor program)
        (Action.change (TraceFile.write (Path.join directory (program ++ ending)) value)) := by
    apply Action.Writes.change
    intro before after hwrite
    apply (TraceFile.write_grows slashless h hwrite).mono
    rintro _ rfl
    exact hfor
  apply Action.Writes.bind
  · apply Action.Writes.change
    intro before after hcreate
    exact (FileTree.createDirectories_adds (mapError_eq_ok.1 hcreate)).grows
  · intro _
    apply Action.Writes.bind
    · exact hfile _ _ (by decide) (.inl rfl)
    · intro _
      apply Action.Writes.bind
      · exact hfile _ _ (by decide) (.inr rfl)
      · exact fun _ => Action.Writes.pure _

/-- Both files hold what was to be kept: the second does not fall on the first. -/
theorem write_eq_ok {outputs : OutputFiles}
    (h : write directory program entries mismatches s = .ok outputs s') :
    outputs = within directory program ∧
      s'.files.read (within directory program).reconciled =
        .ok (reconciledJson entries).text.toUTF8 ∧
      s'.files.read (within directory program).mismatches =
        .ok (mismatchesJson mismatches).text.toUTF8 := by
  obtain ⟨_, made, _, h⟩ := Action.bind_eq_ok.1 h
  obtain ⟨_, kept, hreconciled, h⟩ := Action.bind_eq_ok.1 h
  obtain ⟨_, final, hmismatches, h⟩ := Action.bind_eq_ok.1 h
  cases h
  have hfirst := Action.files_of_change hreconciled
  have hsecond := Action.files_of_change hmismatches
  have hsuffix (ending : String) :
      ending.toList <:+ (Path.join directory (program ++ ending)).toList :=
    (suffix_append program ending).trans (Path.suffix_join directory _)
  refine ⟨rfl, ?_, TraceFile.read_of_write hsecond⟩
  -- The list of mismatches is written last, so it is the reconciled trace that could be lost.
  exact TraceFile.read_of_other_kind (by decide) (by decide) (by decide)
    (hsuffix TraceFile.reconciledSuffix) (hsuffix TraceFile.mismatchSuffix) hsecond
    (TraceFile.read_of_write hfirst)

end OutputFiles

/-! ## One pair -/

/-- The report on a verification. -/
def Verification.report (verification : Verification) (name : String)
    (files : Option OutputFiles) : ProgramReport where
  name
  outcome := verification.reconciliation.outcome
  stats := verification.reconciliation.stats
  mismatches := verification.mismatches
  files

/-- Keep a verification if a directory is given, and report on it. -/
def Verification.keep (verification : Verification) (name : String) (output : Option String) :
    Action ProgramReport := do
  let files ← match output with
    | some directory =>
      some <$> OutputFiles.write directory name verification.reconciliation.entries
        verification.mismatches
    | none => pure none
  return verification.report name files

theorem Verification.keep_some (verification : Verification) (name directory : String)
    (s : Session) :
    verification.keep name (some directory) s =
      match OutputFiles.write directory name verification.reconciliation.entries
        verification.mismatches s with
      | .ok outputs s' => .ok (verification.report name (some outputs)) s'
      | .error e s' => .error e s' := by
  change EStateM.bind (EStateM.map some (OutputFiles.write directory name
    verification.reconciliation.entries verification.mismatches)) _ s = _
  simp only [EStateM.bind, EStateM.map]
  cases OutputFiles.write directory name verification.reconciliation.entries
      verification.mismatches s with
  | ok outputs s' => rfl
  | error e s' => rfl

/-- The two traces of a pair. -/
def TracePair.traces (pair : TracePair) (files : FileTree) :
    Except Error (List GoldenEntry × DeviceTrace) := do
  return (← TraceFile.readGolden pair.golden files, ← TraceFile.readDevice pair.device files)

theorem TracePair.traces_eq_ok {pair : TracePair} {files : FileTree} {golden : List GoldenEntry}
    {trace : DeviceTrace} :
    pair.traces files = .ok (golden, trace) ↔
      TraceFile.readGolden pair.golden files = .ok golden ∧
        TraceFile.readDevice pair.device files = .ok trace := by
  unfold TracePair.traces
  cases TraceFile.readGolden pair.golden files with
  | error e => exact ⟨nofun, fun h => nomatch h.1⟩
  | ok golden' =>
    cases TraceFile.readDevice pair.device files with
    | error e => exact ⟨nofun, fun h => nomatch h.2⟩
    | ok trace' =>
      constructor
      · intro h
        cases h
        exact ⟨rfl, rfl⟩
      · rintro ⟨⟨⟩, ⟨⟩⟩
        rfl

/-- A trace that cannot be read ends the verification before anything is done. -/
theorem verifyPair_of_not_read {pair : TracePair} {e : Error} (output : Option String)
    (settings : Settings) (h : pair.traces s.files = .error e) :
    verifyPair pair output settings s = .error e s := by
  unfold TracePair.traces at h
  unfold verifyPair
  cases hgolden : TraceFile.readGolden pair.golden s.files with
  | error e' =>
    rw [hgolden] at h
    cases h
    exact Action.ask_bind_of_error hgolden
  | ok golden =>
    rw [hgolden] at h
    rw [Action.ask_bind_of_ok hgolden]
    cases htrace : TraceFile.readDevice pair.device s.files with
    | error e' =>
      rw [htrace] at h
      cases h
      exact Action.ask_bind_of_error htrace
    | ok trace =>
      rw [htrace] at h
      cases h

/-- Once both traces are read, what is left is to keep the verification. Before that it is told of and counted,
which leaves the files as they are. -/
theorem verifyPair_of_read {pair : TracePair} {golden : List GoldenEntry} {trace : DeviceTrace}
    (output : Option String) (settings : Settings)
    (h : pair.traces s.files = .ok (golden, trace)) :
    ∃ told : Session, told.files = s.files ∧
      told.updates = s.updates ++ Metrics.ofVerification
        (verify golden trace settings).reconciliation.stats
        (verify golden trace settings).mismatches.length s.verificationTime ∧
      verifyPair pair output settings s =
        (verify golden trace settings).keep pair.name output told := by
  refine ⟨{ s with
    events := s.events ++ [sizeEvent golden trace] ++
      (verifyWithEvents pair.name golden trace settings).2
    updates := s.updates ++ Metrics.ofVerification
      (verify golden trace settings).reconciliation.stats
      (verify golden trace settings).mismatches.length s.verificationTime }, rfl, rfl, ?_⟩
  obtain ⟨hgolden, htrace⟩ := TracePair.traces_eq_ok.1 h
  unfold verifyPair
  rw [Action.ask_bind_of_ok hgolden, Action.ask_bind_of_ok htrace]
  rfl

/-- A report says what came of a verification, and its two files in a directory hold the rest. -/
structure ProgramReport.Records (report : ProgramReport) (directory : String) (files : FileTree)
    (verification : Verification) : Prop where
  outcome : report.outcome = verification.reconciliation.outcome
  stats : report.stats = verification.reconciliation.stats
  mismatches : report.mismatches = verification.mismatches
  kept : report.files = some (OutputFiles.within directory report.name)
  reconciled : files.read (OutputFiles.within directory report.name).reconciled =
    .ok (OutputFiles.reconciledJson verification.reconciliation.entries).text.toUTF8
  mismatchList : files.read (OutputFiles.within directory report.name).mismatches =
    .ok (OutputFiles.mismatchesJson verification.mismatches).text.toUTF8

variable {pair : TracePair} {directory : String} {settings : Settings}

theorem verifyPair_writes (slashless : '/' ∉ pair.name.toList) :
    Action.Writes (OutputFiles.IsFor pair.name) (verifyPair pair (some directory) settings) := by
  -- Reading, telling and counting leave the files alone, so only the output files are left.
  apply Action.Writes.bind (Action.Writes.ask _)
  intro golden
  apply Action.Writes.bind (Action.Writes.ask _)
  intro trace
  apply Action.Writes.bind (Action.Writes.tell _)
  intro _
  apply Action.Writes.bind (Action.Writes.tell _)
  intro _
  apply Action.Writes.bind (Action.Writes.of_filesAfter fun _ => rfl)
  intro _
  apply Action.Writes.bind (Action.Writes.count _)
  intro _
  apply Action.Writes.bind
  · apply Action.Writes.bind (OutputFiles.write_writes slashless)
    exact fun _ => Action.Writes.pure _
  · exact fun _ => Action.Writes.pure _

theorem records_of_verifyPair {report : ProgramReport}
    (h : verifyPair pair (some directory) settings s = .ok report s') :
    ∃ golden trace, TraceFile.readGolden pair.golden s.files = .ok golden ∧
      TraceFile.readDevice pair.device s.files = .ok trace ∧ report.name = pair.name ∧
      report.Records directory s'.files (verify golden trace settings) := by
  obtain ⟨golden, hgolden, h⟩ := Action.ask_bind_eq_ok.1 h
  obtain ⟨trace, htrace, h⟩ := Action.ask_bind_eq_ok.1 h
  -- What is told and counted in between has no part in the report.
  obtain ⟨_, _, -, h⟩ := Action.bind_eq_ok.1 h
  obtain ⟨_, _, -, h⟩ := Action.bind_eq_ok.1 h
  obtain ⟨_, _, -, h⟩ := Action.bind_eq_ok.1 h
  obtain ⟨_, _, -, h⟩ := Action.bind_eq_ok.1 h
  obtain ⟨files, _, hfiles, h⟩ := Action.bind_eq_ok.1 h
  obtain ⟨outputs, _, hwrite, hfiles⟩ := Action.bind_eq_ok.1 hfiles
  cases hfiles
  cases h
  obtain ⟨rfl, hreconciled, hmismatches⟩ := OutputFiles.write_eq_ok hwrite
  exact ⟨golden, trace, hgolden, htrace, rfl, rfl, rfl, rfl, rfl, hreconciled, hmismatches⟩

end Lockstep
