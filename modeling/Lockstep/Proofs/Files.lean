import Lockstep.Proofs.Paths

/-!
# What changes in a tree of files

Writing and making directories take nothing away: a directory stays a directory, and a file keeps its
bytes unless a file of that name is written. `Grows` says so of the trees before and after, whatever was
done in between, and from it follows that a path which led somewhere leads there still (`Grows.locate`),
and that a file which was not written again is read as before (`Grows.read`). It is not said that a path
that led nowhere still does: it may lead through a directory that was made.
-/

namespace Lockstep

/-- What comes after an error is not reached. -/
theorem bind_eq_ok {ε α β : Type} {x : Except ε α} {f : α → Except ε β} {b : β} :
    x >>= f = .ok b ↔ ∃ a, x = .ok a ∧ f a = .ok b := by
  cases x with
  | error e => simp [bind, Except.bind]
  | ok a => simp [bind, Except.bind]

theorem mapError_eq_ok {ε ε' α : Type} {x : Except ε α} {f : ε → ε'} {a : α} :
    x.mapError f = .ok a ↔ x = .ok a := by
  cases x with
  | error e => exact ⟨nofun, nofun⟩
  | ok b => exact ⟨fun h => by cases h; rfl, fun h => by cases h; rfl⟩

/-- Bytes are text if they are the bytes of that text. -/
theorem fromUTF8?_eq_some {bytes : ByteArray} {text : String} :
    String.fromUTF8? bytes = some text ↔ text.toUTF8 = bytes := by
  constructor
  · intro h
    unfold String.fromUTF8? at h
    split at h
    · cases h
      rfl
    · cases h
  · rintro rfl
    exact dif_pos text.isValidUTF8

namespace FileTree

variable {tree before middle after : FileTree} {place : Place} {path name : String}
  {bytes : ByteArray} {written : String → Prop}

theorem distinct_nil : (([] : List ((Nat × Place) × Node)).map Prod.fst).Nodup := List.nodup_nil

theorem proper_nil : ∀ entry ∈ ([] : List ((Nat × Place) × Node)),
    entry.1 = key entry.1.2 ∧ isFixed entry.1.2 = false := nofun

theorem straysApart_nil :
    (([] : List Stray).map fun stray => (stray.within, stray.name)).Nodup := List.nodup_nil

/-- A tree without anything but the directories that are always there. -/
def empty : FileTree := ⟨[], [], distinct_nil, proper_nil, straysApart_nil⟩

/-! ## Trees that grow -/

/-- Nothing was taken away, and only files with certain names were written. -/
structure Grows (written : String → Prop) (before after : FileTree) : Prop where
  directory : ∀ place, before.find? place = some .directory → after.find? place = some .directory
  file : ∀ place bytes, before.find? place = some (.file bytes) →
    (∀ name, place.getLast? = some name → ¬ written name) → after.find? place = some (.file bytes)

namespace Grows

theorem refl (tree : FileTree) : Grows written tree tree := ⟨fun _ h => h, fun _ _ h _ => h⟩

theorem trans (h : Grows written before middle) (h' : Grows written middle after) :
    Grows written before after where
  directory place hplace := h'.directory place (h.directory place hplace)
  file place bytes hplace hname := h'.file place bytes (h.file place bytes hplace hname) hname

theorem mono {more : String → Prop} (h : Grows written before after)
    (hmore : ∀ name, written name → more name) : Grows more before after where
  directory := h.directory
  file place bytes hplace hname :=
    h.file place bytes hplace fun name hlast hwritten => hname name hlast (hmore name hwritten)

theorem descend (h : Grows written before after) {place final : Place} {way : List String}
    (hway : before.descend place way = .ok final) : after.descend place way = .ok final := by
  induction way generalizing place with
  | nil => exact hway
  | cons step way ih =>
    -- The place that is left was a directory, and is one still; the step itself is judged by its text alone.
    simp only [FileTree.descend] at hway ⊢
    cases hplace : before.find? place with
    | none => simp [hplace] at hway
    | some node =>
      cases node with
      | file bytes => simp [hplace] at hway
      | directory =>
        simp only [hplace] at hway
        simp only [h.directory place hplace]
        split at hway
        · next hdot => rw [if_pos hdot]; exact ih hway
        · next hdot =>
          rw [if_neg hdot]
          split at hway
          · next hdots => rw [if_pos hdots]; exact ih hway
          · next hdots =>
            rw [if_neg hdots]
            split at hway
            · cases hway
            · next hlong => rw [if_neg hlong]; exact ih hway

theorem locate (h : Grows written before after) (hpath : before.locate path = .ok place) :
    after.locate path = .ok place := by
  unfold FileTree.locate at hpath ⊢
  cases hfault : pathFault? path with
  | some fault => simp [hfault] at hpath
  | none =>
    simp only [hfault] at hpath ⊢
    exact h.descend hpath

end Grows

/-! ## The place of a file -/

/-- What is no directory is at no place that is always there, so it can be put there. -/
theorem find?_insert_of_ne (h : tree.find? place ≠ some .directory) (node : Node) (other : Place) :
    (tree.insert place node).find? other = if other = place then some node else tree.find? other := by
  apply find?_insert
  rw [Bool.eq_false_iff]
  intro hfixed
  rw [find?, if_pos hfixed] at h
  exact h rfl

/-- Staying in place is possible in a directory alone. -/
theorem descend_dot {final : Place} (h : tree.descend place ["."] = .ok final) :
    tree.find? place = some .directory ∧ final = place := by
  simp only [descend] at h
  split at h
  · cases h
  · cases h
  · next hplace => exact ⟨hplace, by simpa using h.symm⟩

theorem descend_name {final : Place} (dot : name ≠ ".") (dots : name ≠ "..")
    (h : tree.descend place [name] = .ok final) : final = place ++ [name] := by
  simp only [descend, if_neg dot, if_neg dots] at h
  split at h
  · cases h
  · cases h
  · split at h
    · cases h
    · exact (Except.ok.inj h).symm

theorem descend_append_eq_ok {way rest : List String} {final : Place} :
    tree.descend place (way ++ rest) = .ok final ↔
      ∃ between, tree.descend place way = .ok between ∧ tree.descend between rest = .ok final := by
  rw [descend_append]
  exact bind_eq_ok

/-- A slash at the end of a path changes nothing in where it leads. -/
theorem descend_of_locate (h : tree.locate path = .ok place) :
    pathFault? path = none ∧ tree.descend (origin path) (Path.steps path) = .ok place := by
  unfold locate at h
  split at h
  · cases h
  · next hfault =>
    refine ⟨hfault, ?_⟩
    dsimp only at h
    split at h
    · obtain ⟨between, hbetween, hdot⟩ := descend_append_eq_ok.1 h
      rw [(descend_dot hdot).2]
      exact hbetween
    · exact h

/-- What a path leads to is called by the last step of the path. -/
theorem getLast?_of_locate (hlast : Path.lastStep? path = some name) (dot : name ≠ ".")
    (dots : name ≠ "..") (h : tree.locate path = .ok place) : place.getLast? = some name := by
  obtain ⟨front, hsteps⟩ := List.getLast?_eq_some_iff.1 hlast
  obtain ⟨-, hdescend⟩ := descend_of_locate h
  rw [hsteps] at hdescend
  obtain ⟨between, -, hname⟩ := descend_append_eq_ok.1 hdescend
  rw [descend_name dot dots hname, List.getLast?_concat]

/-! ## Reading -/

theorem node_eq_ok {node : Node} :
    tree.node path = .ok node ↔
      ∃ place, tree.locate path = .ok place ∧ tree.find? place = some node := by
  unfold FileTree.node
  rw [bind_eq_ok]
  refine exists_congr fun place => and_congr_right fun _ => ?_
  cases tree.find? place with
  | none => exact ⟨nofun, nofun⟩
  | some found => exact ⟨fun h => congrArg some (Except.ok.inj h), fun h => by cases h; rfl⟩

theorem read_eq_ok :
    tree.read path = .ok bytes ↔
      ∃ place, tree.locate path = .ok place ∧ tree.find? place = some (.file bytes) := by
  rw [← node_eq_ok]
  unfold read
  rw [bind_eq_ok]
  constructor
  · rintro ⟨node, hnode, h⟩
    cases node with
    | directory => cases h
    | file bytes' => cases h; exact hnode
  · exact fun hnode => ⟨.file bytes, hnode, rfl⟩

theorem isDirectory_iff :
    tree.isDirectory path = true ↔
      ∃ place, tree.locate path = .ok place ∧ tree.find? place = some .directory := by
  rw [← node_eq_ok]
  unfold isDirectory
  cases tree.node path with
  | error fault => simp
  | ok node => cases node <;> simp

theorem isFile_iff : tree.isFile path = true ↔ ∃ bytes, tree.read path = .ok bytes := by
  unfold isFile read
  cases tree.node path with
  | error fault => simp [bind, Except.bind]
  | ok node => cases node <;> simp [bind, Except.bind]

theorem readText_of_read {text : String} (h : tree.read path = .ok text.toUTF8) :
    tree.readText path = .ok text := by
  have htext : String.fromUTF8? text.toUTF8 = some text := fromUTF8?_eq_some.2 rfl
  unfold readText
  simp only [h, bind, Except.bind, htext]

theorem Grows.read (h : Grows written before after) (hlast : Path.lastStep? path = some name)
    (dot : name ≠ ".") (dots : name ≠ "..") (hname : ¬ written name)
    (hread : before.read path = .ok bytes) : after.read path = .ok bytes := by
  obtain ⟨place, hlocate, hfile⟩ := read_eq_ok.1 hread
  refine read_eq_ok.2 ⟨place, h.locate hlocate, h.file place bytes hfile ?_⟩
  intro other hother
  rw [getLast?_of_locate hlast dot dots hlocate, Option.some.injEq] at hother
  exact hother ▸ hname

/-! ## Making directories -/

/-- Nothing changed but that directories were made where nothing stood. -/
def Adds (before after : FileTree) : Prop :=
  ∀ place, after.find? place = before.find? place ∨
    before.find? place = none ∧ after.find? place = some .directory

namespace Adds

theorem refl (tree : FileTree) : Adds tree tree := fun _ => .inl rfl

theorem trans (h : Adds before middle) (h' : Adds middle after) : Adds before after := by
  intro place
  rcases h place with hsame | ⟨hnone, hmade⟩
  · rw [← hsame]
    exact h' place
  · rcases h' place with hsame | ⟨hfree, -⟩
    · exact .inr ⟨hnone, hsame.trans hmade⟩
    · rw [hmade] at hfree
      cases hfree

theorem grows (h : Adds before after) : Grows written before after := by
  have hkept (place : Place) (node : Node) (hnode : before.find? place = some node) :
      after.find? place = some node := by
    rcases h place with hsame | ⟨hnone, -⟩
    · exact hsame.trans hnode
    · rw [hnone] at hnode
      cases hnode
  exact ⟨fun place => hkept place _, fun place bytes hfile _ => hkept place _ hfile⟩

end Adds

theorem adds_insert (h : tree.find? place = none) : Adds tree (tree.insert place .directory) := by
  have hne : tree.find? place ≠ some .directory := by rw [h]; exact nofun
  intro other
  rw [find?_insert_of_ne hne]
  split
  · next same => exact .inr ⟨same ▸ h, rfl⟩
  · exact .inl rfl

theorem createDirectory_adds (h : tree.createDirectory path = .ok after) : Adds tree after := by
  obtain ⟨⟨within, last⟩, -, h⟩ := bind_eq_ok.1 h
  split at h
  · cases h
  · cases h
  · cases h
  · obtain ⟨place, -, h⟩ := bind_eq_ok.1 h
    split at h
    · cases h
    · next hfree =>
      cases h
      exact adds_insert hfree

theorem ensureDirectory_adds (h : tree.ensureDirectory path = .ok after) : Adds tree after := by
  unfold ensureDirectory at h
  split at h
  · next hcreate =>
    cases h
    exact createDirectory_adds hcreate
  · split at h
    · cases h
      exact Adds.refl _
    · cases h

theorem ensureSteps_adds {way : List String} (h : tree.ensureSteps place way = .ok after) :
    Adds tree after := by
  induction way generalizing tree place with
  | nil =>
    cases h
    exact Adds.refl _
  | cons step way ih =>
    simp only [ensureSteps] at h
    split at h
    · exact ih h
    · split at h
      · exact ih h
      · split at h
        · cases h
        · split at h
          · exact ih h
          · cases h
          · next hfree => exact (adds_insert hfree).trans (ih h)

theorem createDirectories_adds (h : tree.createDirectories path = .ok after) : Adds tree after := by
  unfold createDirectories at h
  split at h
  · cases h
    exact Adds.refl _
  · split at h
    · obtain ⟨between, hsteps, h⟩ := bind_eq_ok.1 h
      exact (ensureSteps_adds hsteps).trans (ensureDirectory_adds h)
    · exact ensureDirectory_adds h

/-! ## Writing -/

theorem approach_eq_ok {within : Place} {last : Option String}
    (h : tree.approach path = .ok (within, last)) :
    pathFault? path = none ∧ last = (Path.steps path).getLast? ∧
      tree.descend (origin path) (Path.steps path).dropLast = .ok within := by
  unfold approach at h
  split at h
  · cases h
  · next hfault =>
    obtain ⟨place, hway, h⟩ := bind_eq_ok.1 h
    cases h
    obtain ⟨between, hbetween, hdot⟩ := descend_append_eq_ok.1 hway
    obtain ⟨-, rfl⟩ := descend_dot hdot
    exact ⟨hfault, rfl, hbetween⟩

/-- A file is written to the place that its path leads to. -/
theorem write_eq_ok (h : tree.write path bytes = .ok after) :
    ∃ place, tree.locate path = .ok place ∧ tree.find? place ≠ some .directory ∧
      after = tree.insert place (.file bytes) := by
  obtain ⟨⟨within, last⟩, happroach, h⟩ := bind_eq_ok.1 h
  obtain ⟨hfault, hlast, hwithin⟩ := approach_eq_ok happroach
  dsimp only at h
  split at h
  · cases h
  · next slash =>
    obtain ⟨place, hplace, h⟩ := bind_eq_ok.1 h
    split at h
    · cases h
    · next hne =>
      -- The way and the last step are looked up apart here, and in one go by `locate`.
      have hsteps : (Path.steps path).dropLast ++ last.toList = Path.steps path := by
        cases last with
        | none =>
          rw [List.getLast?_eq_none_iff.1 hlast.symm]
          rfl
        | some name => exact List.dropLast_append_getLast? name hlast.symm
      refine ⟨place, ?_, hne, (Except.ok.inj h).symm⟩
      simp only [locate, hfault, if_neg slash]
      rw [← hsteps]
      exact descend_append_eq_ok.2 ⟨within, hwithin, hplace⟩

theorem grows_insert_file (h : tree.find? place ≠ some .directory)
    (hname : ∀ name, place.getLast? = some name → written name) :
    Grows written tree (tree.insert place (.file bytes)) := by
  refine ⟨fun other hother => ?_, fun other bytes hother hlast => ?_⟩
  · rw [find?_insert_of_ne h, if_neg]
    · exact hother
    · rintro rfl
      exact h hother
  · rw [find?_insert_of_ne h]
    split
    case isFalse => exact hother
    case isTrue same =>
      -- A place without a name is the working directory, and no file.
      cases hplace : place.getLast? with
      | none =>
        rw [List.getLast?_eq_none_iff.1 hplace] at h
        exact absurd rfl h
      | some name => exact absurd (hname name hplace) (hlast name (same ▸ hplace))

theorem write_grows (hlast : Path.lastStep? path = some name) (dot : name ≠ ".")
    (dots : name ≠ "..") (h : tree.write path bytes = .ok after) : Grows (· = name) tree after := by
  obtain ⟨place, hlocate, hne, rfl⟩ := write_eq_ok h
  apply grows_insert_file hne
  intro other hother
  rw [getLast?_of_locate hlast dot dots hlocate, Option.some.injEq] at hother
  exact hother.symm

/-- What was written can be read. -/
theorem read_of_write (h : tree.write path bytes = .ok after) : after.read path = .ok bytes := by
  obtain ⟨place, hlocate, hne, rfl⟩ := write_eq_ok h
  have hgrows : Grows (fun _ => True) tree (tree.insert place (.file bytes)) :=
    grows_insert_file hne fun _ _ => trivial
  refine read_eq_ok.2 ⟨place, hgrows.locate hlocate, ?_⟩
  rw [find?_insert_of_ne hne, if_pos rfl]

end FileTree

end Lockstep
