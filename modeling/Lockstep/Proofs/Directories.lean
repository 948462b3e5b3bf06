import Lockstep.Proofs.Files

/-!
# Directories and what is written in them

A directory that was made is there (`isDirectory_of_createDirectories`), and making it once more changes
nothing (`createDirectories_of_isDirectory`). Where a file in it is written to is then settled: `target` gives
the place, or the cause why there is none, and does not change while files are written
(`Overlays.target_join`). So whoever writes into a directory after others, writes as if it were alone.
-/

namespace Lockstep.FileTree

variable {tree base before after : FileTree} {place : Place} {path directory name : String}
  {bytes : ByteArray} {written : String → Prop}

/-! ## Making a directory twice -/

theorem createDirectory_eq_ok (h : tree.createDirectory path = .ok after) :
    pathFault? path = none ∧ ∃ place, tree.descend (origin path) (Path.steps path) = .ok place ∧
      tree.find? place = none ∧ after = tree.insert place .directory := by
  obtain ⟨⟨within, last⟩, happroach, h⟩ := bind_eq_ok.1 h
  obtain ⟨hfault, hlast, hwithin⟩ := approach_eq_ok happroach
  refine ⟨hfault, ?_⟩
  split at h
  · cases h
  · cases h
  · cases h
  · next within' name hdot hdots heq =>
    obtain ⟨place, hplace, h⟩ := bind_eq_ok.1 h
    split at h
    · cases h
    · next hfree =>
      refine ⟨place, ?_, hfree, (Except.ok.inj h).symm⟩
      obtain ⟨rfl, rfl⟩ := Prod.mk.inj heq
      rw [← List.dropLast_append_getLast? name hlast.symm]
      exact descend_append_eq_ok.2 ⟨_, hwithin, hplace⟩

/-- A path that leads to a directory still does so with a slash behind it. -/
theorem isDirectory_of_descend (hfault : pathFault? path = none)
    (h : tree.descend (origin path) (Path.steps path) = .ok place)
    (hplace : tree.find? place = some .directory) : tree.isDirectory path = true := by
  have hdot : tree.descend place ["."] = .ok place := by simp [descend, hplace]
  refine isDirectory_iff.2 ⟨place, ?_, hplace⟩
  simp only [locate, hfault]
  split
  · exact descend_append_eq_ok.2 ⟨place, h, hdot⟩
  · exact h

theorem Grows.isDirectory (h : Grows written before after)
    (hdirectory : before.isDirectory path = true) : after.isDirectory path = true := by
  obtain ⟨place, hlocate, hplace⟩ := isDirectory_iff.1 hdirectory
  exact isDirectory_iff.2 ⟨place, h.locate hlocate, h.directory place hplace⟩

theorem isDirectory_of_ensureDirectory (h : tree.ensureDirectory path = .ok after) :
    after.isDirectory path = true := by
  unfold ensureDirectory at h
  split at h
  · next hcreate =>
    cases h
    obtain ⟨hfault, place, hplace, hfree, rfl⟩ := createDirectory_eq_ok hcreate
    have hgrows : Grows (fun _ => True) tree (tree.insert place .directory) :=
      (adds_insert hfree).grows
    apply isDirectory_of_descend hfault (hgrows.descend hplace)
    rw [find?_insert_of_ne (by rw [hfree]; exact nofun), if_pos rfl]
  · split at h
    · next hdirectory =>
      cases h
      exact hdirectory
    · cases h

theorem isDirectory_of_createDirectories (hne : path ≠ "")
    (h : tree.createDirectories path = .ok after) : after.isDirectory path = true := by
  unfold createDirectories at h
  split at h
  · next hempty => exact absurd (by simpa using hempty) hne
  · split at h
    · obtain ⟨between, -, h⟩ := bind_eq_ok.1 h
      exact isDirectory_of_ensureDirectory h
    · exact isDirectory_of_ensureDirectory h

theorem ensureDirectory_of_isDirectory (h : tree.isDirectory path = true) :
    tree.ensureDirectory path = .ok tree := by
  obtain ⟨place, hlocate, hplace⟩ := isDirectory_iff.1 h
  unfold ensureDirectory
  split
  · next hcreate =>
    -- A directory can only be made where nothing is.
    obtain ⟨-, other, hother, hfree, -⟩ := createDirectory_eq_ok hcreate
    rw [(descend_of_locate hlocate).2] at hother
    cases hother
    rw [hplace] at hfree
    cases hfree
  · rw [if_pos h]

theorem createDirectories_of_isDirectory (h : tree.isDirectory path = true) :
    tree.createDirectories path = .ok tree := by
  unfold createDirectories
  split
  · rfl
  · rw [ensureDirectory_of_isDirectory h]

/-! ## Where a file is written -/

/-- A place that a file may be put at. -/
def notDirectory (tree : FileTree) (place : Place) : Except FileFault Place :=
  if tree.find? place = some .directory then .error .isADirectory else .ok place

/-- The place that a file with this path is written to. -/
def target (tree : FileTree) (path : String) : Except FileFault Place := do
  let (within, last) ← tree.approach path
  if path.endsWith "/" then .error .isADirectory
  else tree.notDirectory (← tree.descend within last.toList)

theorem write_eq_map_target (tree : FileTree) (path : String) (bytes : ByteArray) :
    tree.write path bytes =
      (tree.target path).map fun place => tree.insert place (.file bytes) := by
  unfold write target
  cases tree.approach path with
  | error fault => rfl
  | ok approached =>
    obtain ⟨within, last⟩ := approached
    simp only [bind, Except.bind]
    split
    · rfl
    · cases hplace : tree.descend within last.toList with
      | error fault => rfl
      | ok place =>
        simp only [notDirectory]
        split
        · next hdirectory => rw [if_pos hdirectory]; rfl
        · next hother => rw [if_neg hother]; rfl

/-- A directory, named by a path or by the empty path, which stands for the working directory. -/
def Holds (tree : FileTree) (directory : String) : Prop :=
  directory = "" ∨ tree.isDirectory directory = true

theorem holds_of_createDirectories (h : tree.createDirectories directory = .ok after) :
    after.Holds directory := by
  by_cases hempty : directory = ""
  · exact .inl hempty
  · exact .inr (isDirectory_of_createDirectories hempty h)

theorem Holds.createDirectories (h : tree.Holds directory) :
    tree.createDirectories directory = .ok tree := by
  rcases h with rfl | h
  · rfl
  · exact createDirectories_of_isDirectory h

theorem Grows.holds (h : Grows written before after) (hholds : before.Holds directory) :
    after.Holds directory := hholds.imp_right h.isDirectory

/-- The way to a file in a directory ends in that directory. -/
theorem approach_join (hholds : tree.Holds directory) (slashless : '/' ∉ name.toList)
    (hne : name ≠ "") (hfault : pathFault? (Path.join directory name) = none) :
    ∃ within, tree.find? within = some .directory ∧
      tree.descend (origin directory) (Path.steps directory) = .ok within ∧
      tree.approach (Path.join directory name) = .ok (within, some name) := by
  obtain ⟨within, hwithin, hway⟩ : ∃ within, tree.find? within = some .directory ∧
      tree.descend (origin directory) (Path.steps directory) = .ok within := by
    rcases hholds with rfl | hdirectory
    · exact ⟨[], rfl, rfl⟩
    · obtain ⟨place, hlocate, hplace⟩ := isDirectory_iff.1 hdirectory
      exact ⟨place, hplace, (descend_of_locate hlocate).2⟩
  have hdot : tree.descend within ["."] = .ok within := by simp [descend, hwithin]
  have horigin : origin (Path.join directory name) = origin directory := by
    rw [origin, Path.isAbsolute_join directory slashless]
    rfl
  refine ⟨within, hwithin, hway, ?_⟩
  simp only [approach, hfault, Path.steps_join directory slashless hne, horigin,
    List.dropLast_concat, List.getLast?_concat, descend_append_eq_ok.2 ⟨within, hway, hdot⟩]
  rfl

/-- What is written in a directory is called as its path says, and replaces no directory. -/
theorem of_target_join (slashless : '/' ∉ name.toList) (hne : name ≠ "") (dot : name ≠ ".")
    (dots : name ≠ "..") (h : tree.target (Path.join directory name) = .ok place) :
    place.getLast? = some name ∧ tree.find? place ≠ some .directory := by
  obtain ⟨⟨within, last⟩, happroach, h⟩ := bind_eq_ok.1 h
  obtain ⟨-, hlast, -⟩ := approach_eq_ok happroach
  rw [Path.steps_join directory slashless hne, List.getLast?_concat] at hlast
  subst hlast
  dsimp only at h
  split at h
  · cases h
  · obtain ⟨other, hother, h⟩ := bind_eq_ok.1 h
    unfold notDirectory at h
    split at h
    · cases h
    · next hfree =>
      cases h
      rw [descend_name dot dots hother] at hfree ⊢
      exact ⟨List.getLast?_concat, hfree⟩

/-! ## Files over a tree -/

/-- Nothing changed but that files with certain names were put where no directory stood. -/
def Overlays (written : String → Prop) (base after : FileTree) : Prop :=
  ∀ place, after.find? place = base.find? place ∨
    base.find? place ≠ some .directory ∧ (∃ bytes, after.find? place = some (.file bytes)) ∧
      ∃ name, place.getLast? = some name ∧ written name

namespace Overlays

theorem refl (tree : FileTree) : Overlays written tree tree := fun _ => .inl rfl

theorem mono {more : String → Prop} (h : Overlays written base after)
    (hmore : ∀ name, written name → more name) : Overlays more base after := fun place =>
  (h place).imp_right fun ⟨hne, hfile, name, hlast, hwritten⟩ =>
    ⟨hne, hfile, name, hlast, hmore name hwritten⟩

theorem find?_eq_directory_iff (h : Overlays written base after) (place : Place) :
    after.find? place = some .directory ↔ base.find? place = some .directory := by
  rcases h place with hsame | ⟨hne, ⟨bytes, hfile⟩, -⟩
  · rw [hsame]
  · rw [hfile]
    exact ⟨nofun, fun hdirectory => absurd hdirectory hne⟩

theorem grows (h : Overlays written base after) : Grows written base after := by
  refine ⟨fun place => (h.find?_eq_directory_iff place).2, fun place bytes hfile hlast => ?_⟩
  rcases h place with hsame | ⟨-, -, name, hname, hwritten⟩
  · exact hsame.trans hfile
  · exact absurd hwritten (hlast name hname)

theorem insert (h : Overlays written base after) (hne : base.find? place ≠ some .directory)
    (hlast : place.getLast? = some name) (hname : written name) (bytes : ByteArray) :
    Overlays written base (after.insert place (.file bytes)) := by
  have hfree : after.find? place ≠ some .directory := fun hdirectory =>
    hne ((h.find?_eq_directory_iff place).1 hdirectory)
  intro other
  rw [find?_insert_of_ne hfree]
  split
  · next same =>
    subst same
    exact .inr ⟨hne, ⟨bytes, rfl⟩, name, hlast, hname⟩
  · exact h other

/-- Files that were written before change nothing in where the next one is written to. -/
theorem target_join (h : Overlays written base after) (hholds : base.Holds directory)
    (slashless : '/' ∉ name.toList) (hne : name ≠ "") :
    after.target (Path.join directory name) = base.target (Path.join directory name) := by
  cases hfault : pathFault? (Path.join directory name) with
  | some fault => simp only [target, approach, hfault]; rfl
  | none =>
    obtain ⟨within, hwithin, hway, hbase⟩ := approach_join hholds slashless hne hfault
    obtain ⟨within', -, hway', hafter⟩ := approach_join (h.grows.holds hholds) slashless hne hfault
    obtain rfl : within' = within := Except.ok.inj (hway'.symm.trans (h.grows.descend hway))
    -- The last step is judged by its text alone, and what it leads to only by being a directory.
    have hlast : after.descend within' [name] = base.descend within' [name] := by
      have hwithin' := (h.find?_eq_directory_iff within').2 hwithin
      simp only [descend, hwithin, hwithin']
    have hkind (place : Place) : after.notDirectory place = base.notDirectory place := by
      simp only [notDirectory, h.find?_eq_directory_iff place]
    simp only [target, hbase, hafter, bind, Except.bind, Option.toList_some, hlast]
    split
    · rfl
    · cases base.descend within' [name] with
      | error fault => rfl
      | ok place => exact hkind place

end Overlays

/-! ## A directory that is made once -/

/-- The directory was made, and then files were written. -/
def Prepared (written : String → Prop) (before : FileTree) (directory : String)
    (after : FileTree) : Prop :=
  ∃ made, before.createDirectories directory = .ok made ∧ Overlays written made after

/-- Nothing has changed, or the directory was made and then files were written. -/
def Reached (written : String → Prop) (before : FileTree) (output : Option String)
    (after : FileTree) : Prop :=
  after = before ∨ ∃ directory, output = some directory ∧ Prepared written before directory after

theorem Prepared.mono {more : String → Prop} (h : Prepared written before directory after)
    (hmore : ∀ name, written name → more name) : Prepared more before directory after := by
  obtain ⟨made, hmade, hafter⟩ := h
  exact ⟨made, hmade, hafter.mono hmore⟩

theorem Prepared.reached {output : Option String} (houtput : output = some directory)
    (h : Prepared written before directory after) : Reached written before output after :=
  .inr ⟨directory, houtput, h⟩

theorem Reached.grows {output : Option String} (h : Reached written before output after) :
    Grows written before after := by
  rcases h with rfl | ⟨directory, -, made, hmade, hafter⟩
  · exact Grows.refl _
  · exact (createDirectories_adds hmade).grows.trans hafter.grows

end Lockstep.FileTree
