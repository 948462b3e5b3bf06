import Lockstep.Files.Path

/-!
# Trees of files

A `FileTree` is a value: directories and files with their bytes, by the names on the way to them from
the working directory. The working directory, the directories above it and the root of all files are
always there.

Reading looks a path up (`locate`), and gives the cause where there is nothing to be read. Writing
looks up the way to the last step of a path (`approach`), and gives the tree after it. `find?_insert`
says what a write changes: the one place it writes to. A directory is made after those on the way to it
only if it cannot be made at once, so a path that ends in a single dot is not made from nothing.

For the system a name is bytes. Paths are text here, so they lead to what has a text for its name. What
has not is a `Stray`: it is seen in the listing of its directory, and nothing else comes across it.
-/

namespace Lockstep

/-- What stands at a place of a tree. -/
inductive FileTree.Node where
  | directory
  | file (bytes : ByteArray)

instance : DecidableEq FileTree.Node
  | .directory, .directory => .isTrue rfl
  | .directory, .file _ => .isFalse nofun
  | .file _, .directory => .isFalse nofun
  | .file bytes, .file other =>
    match ByteArray.instDecidableEq bytes other with
    | .isTrue h => .isTrue (congrArg FileTree.Node.file h)
    | .isFalse h => .isFalse fun same => h (FileTree.Node.file.inj same)

/-- The place of a file or directory: the names on the way to it from the working directory, behind two
dots for each directory that it goes up first. The way from the root of all files begins with a slash.
-/
abbrev FileTree.Place := List String

/-- The place of the root of all files. -/
def FileTree.root : FileTree.Place := ["/"]

/-- The working directory, a directory above it, or the root of all files. -/
def FileTree.isFixed (place : FileTree.Place) : Bool :=
  place.all (· == "..") || place == FileTree.root

/-- A place behind its depth. Deep places are told apart by their depth, without a look at the names. -/
def FileTree.key (place : FileTree.Place) : Nat × FileTree.Place := (place.length, place)

/-- What stands in a directory under a name that is not text. -/
structure FileTree.Stray where
  /-- The directory that holds it. -/
  within : FileTree.Place
  name : ByteArray
  node : FileTree.Node
  notText : String.fromUTF8? name = none

/-- Directories and files. -/
structure FileTree where
  /-- What there is beside the directories that are always there, by the key of its place. -/
  entries : List ((Nat × FileTree.Place) × FileTree.Node) := []
  strays : List FileTree.Stray := []
  /-- There is one thing at a place. -/
  distinct : (entries.map Prod.fst).Nodup := by simp
  /-- Depths are right, and the directories that are always there are not listed. -/
  proper : ∀ entry ∈ entries,
    entry.1 = FileTree.key entry.1.2 ∧ FileTree.isFixed entry.1.2 = false := by simp
  /-- A name stands once in a directory. -/
  straysApart : (strays.map fun stray => (stray.within, stray.name)).Nodup := by simp

/-- Why a file or directory cannot be used, or a program cannot be started. -/
inductive FileFault where
  | notFound
  | permissionDenied
  | alreadyExists
  | notADirectory
  | isADirectory
  | nameTooLong
  /-- The path holds the character that ends a path. -/
  | invalidPath
  /-- An argument for a program holds the character that ends an argument. -/
  | invalidArgument
  /-- An argument for a program has too many bytes. -/
  | argumentTooLong
  /-- The bytes of the file are not text. -/
  | notText
  deriving DecidableEq, Repr

def FileFault.message : FileFault → String
  | .notFound => "No such file or directory (os error 2)"
  | .permissionDenied => "Permission denied (os error 13)"
  | .alreadyExists => "File exists (os error 17)"
  | .notADirectory => "Not a directory (os error 20)"
  | .isADirectory => "Is a directory (os error 21)"
  | .nameTooLong => "File name too long (os error 36)"
  | .invalidPath => "file name contained an unexpected NUL byte"
  | .invalidArgument => "nul byte found in provided data"
  | .argumentTooLong => "Argument list too long (os error 7)"
  | .notText => "stream did not contain valid UTF-8"

namespace FileTree

/-! ## Places -/

/-- The path of a place. -/
def path : Place → String
  | [] => "."
  | first :: rest =>
    if first = "/" then "/" ++ String.intercalate "/" rest
    else String.intercalate "/" (first :: rest)

/-- The directory that holds a place. Nothing is above the root. -/
def above (place : Place) : Place :=
  if place = root then root
  else if isFixed place then place ++ [".."]
  else place.dropLast

theorem key_injective {place other : Place} (h : key place = key other) : place = other :=
  congrArg Prod.snd h

/-- What stands at a place. -/
def find? (tree : FileTree) (place : Place) : Option Node :=
  if isFixed place then some .directory
  else
    let key := key place
    (tree.entries.find? (·.1 == key)).map Prod.snd

/-- Put something at a place, instead of what stands there. A directory that is always there stays as
it is. -/
def insert (tree : FileTree) (place : Place) (node : Node) : FileTree :=
  if h : isFixed place then tree
  else { tree with
    entries := (key place, node) :: tree.entries.filter (·.1 != key place)
    distinct := by
      rw [List.map_cons, List.nodup_cons]
      constructor
      · simp
      · exact tree.distinct.sublist (List.filter_sublist.map Prod.fst)
    proper := by
      intro entry he
      rcases List.mem_cons.1 he with rfl | he
      · exact ⟨rfl, by simpa [key] using h⟩
      · exact tree.proper entry (List.mem_filter.1 he).1 }

theorem find?_insert (tree : FileTree) {place : Place} (node : Node) (other : Place)
    (h : isFixed place = false) :
    (tree.insert place node).find? other =
      if other = place then some node else tree.find? other := by
  unfold find? insert
  rw [dif_neg (by simp [h])]
  by_cases e : other = place
  · subst e
    simp [h]
  · have apart : ¬ key other = key place := fun e' => e (key_injective e')
    have apart' : ¬ key place = key other := fun e' => apart e'.symm
    simp only [e, if_false]
    split
    · rfl
    · simp only [List.find?_cons, List.find?_filter]
      have hb : (key place == key other) = false := by simpa using apart'
      simp only [hb]
      congr 2
      funext x
      by_cases hx : x.1 = key other
      · simp [hx, apart]
      · simp [hx]

/-- Go on from a place by steps. Each place that is left has to be a directory; the last one need not
exist. -/
def descend (tree : FileTree) : Place → List String → Except FileFault Place
  | place, [] => .ok place
  | place, step :: rest =>
    match tree.find? place with
    | none => .error .notFound
    | some (.file _) => .error .notADirectory
    | some .directory =>
      if step = "." then descend tree place rest
      else if step = ".." then descend tree (above place) rest
      else if 255 < step.utf8ByteSize then .error .nameTooLong
      else descend tree (place ++ [step]) rest

theorem descend_append (tree : FileTree) (place : Place) (way rest : List String) :
    tree.descend place (way ++ rest) = (tree.descend place way).bind (tree.descend · rest) := by
  induction way generalizing place with
  | nil => rfl
  | cons step way ih =>
    simp only [List.cons_append, descend]
    split
    · rfl
    · rfl
    · repeat' split
      · exact ih _
      · exact ih _
      · rfl
      · exact ih _

/-- Where the steps of a path start. -/
def origin (path : String) : Place := if Path.isAbsolute path then root else []

/-- The bytes that a path may have. -/
def pathLimit : Nat := 4095

/-- What keeps a path from being looked up at all. -/
def pathFault? (path : String) : Option FileFault :=
  if path.isEmpty then some .notFound
  else if path.toList.contains '\x00' then some .invalidPath
  else if pathLimit < path.utf8ByteSize then some .nameTooLong
  else none

/-- The place that a path leads to. A path that ends with a slash leads to a directory. -/
def locate (tree : FileTree) (path : String) : Except FileFault Place :=
  match pathFault? path with
  | some fault => .error fault
  | none =>
    let steps := Path.steps path
    tree.descend (origin path) (if path.endsWith "/" then steps ++ ["."] else steps)

/-! ## Reading -/

/-- What a path leads to. -/
def node (tree : FileTree) (path : String) : Except FileFault Node := do
  match tree.find? (← tree.locate path) with
  | some node => .ok node
  | none => .error .notFound

/-- A path leads to something. -/
def pathExists (tree : FileTree) (path : String) : Bool := (tree.node path).isOk

/-- A path leads to a file. -/
def isFile (tree : FileTree) (path : String) : Bool :=
  match tree.node path with
  | .ok (.file _) => true
  | _ => false

/-- A path leads to a directory. -/
def isDirectory (tree : FileTree) (path : String) : Bool :=
  match tree.node path with
  | .ok .directory => true
  | _ => false

/-- The bytes of a file. -/
def read (tree : FileTree) (path : String) : Except FileFault ByteArray := do
  match ← tree.node path with
  | .file bytes => .ok bytes
  | .directory => .error .isADirectory

/-- The text of a file. -/
def readText (tree : FileTree) (path : String) : Except FileFault String := do
  match String.fromUTF8? (← tree.read path) with
  | some text => .ok text
  | none => .error .notText

/-- The names in a directory that are text. -/
def names (tree : FileTree) (path : String) : Except FileFault (List String) := do
  match ← tree.node path with
  | .file _ => .error .notADirectory
  | .directory =>
    let place ← tree.locate path
    .ok (tree.entries.filterMap fun ((_, p), _) =>
      if p.dropLast = place then p.getLast? else none)

/-- The names in a directory as the system has them. -/
def listing (tree : FileTree) (path : String) : Except FileFault (List ByteArray) := do
  let names ← tree.names path
  let place ← tree.locate path
  return names.map String.toUTF8 ++ (tree.strays.filter (·.within = place)).map (·.name)

/-- Every file below a place, with the names on the way from there. -/
def filesBelow (tree : FileTree) (place : Place) : List (Place × ByteArray) :=
  tree.entries.filterMap fun ((_, p), node) =>
    match node, place.isPrefixOf? p with
    | .file bytes, some way => if isFixed (way.take 1) then none else some (way, bytes)
    | _, _ => none

/-! ## Writing -/

/-- The directory that the last step of a path starts from, and that step. -/
def approach (tree : FileTree) (path : String) : Except FileFault (Place × Option String) := do
  match pathFault? path with
  | some fault => .error fault
  | none =>
    let steps := Path.steps path
    return (← tree.descend (origin path) (steps.dropLast ++ ["."]), steps.getLast?)

/-- Make a directory. What is on the way to it has to be there. -/
def createDirectory (tree : FileTree) (path : String) : Except FileFault FileTree := do
  match ← tree.approach path with
  | (_, none) | (_, some ".") | (_, some "..") => .error .alreadyExists
  | (within, some name) =>
    let place ← tree.descend within [name]
    match tree.find? place with
    | some _ => .error .alreadyExists
    | none => .ok (tree.insert place .directory)

/-- Make a directory, if it is not there yet. -/
def ensureDirectory (tree : FileTree) (path : String) : Except FileFault FileTree :=
  match tree.createDirectory path with
  | .ok tree => .ok tree
  | .error fault => if tree.isDirectory path then .ok tree else .error fault

/-- Make each directory on the way by steps that is not there yet. -/
def ensureSteps (tree : FileTree) : Place → List String → Except FileFault FileTree
  | _, [] => .ok tree
  | place, step :: rest =>
    if step = "." then ensureSteps tree place rest
    else if step = ".." then ensureSteps tree (above place) rest
    else if 255 < step.utf8ByteSize then .error .nameTooLong
    else
      let next := place ++ [step]
      match tree.find? next with
      | some .directory => ensureSteps tree next rest
      | some (.file _) => .error .alreadyExists
      | none => ensureSteps (tree.insert next .directory) next rest

/-- Make a directory. If it cannot be made because something on the way to it is missing, the way is made
first. The empty path asks for nothing. -/
def createDirectories (tree : FileTree) (path : String) : Except FileFault FileTree :=
  if path.isEmpty then .ok tree
  else
    match tree.ensureDirectory path with
    | .error .notFound => do
      (← tree.ensureSteps (origin path) (Path.properSteps path).dropLast).ensureDirectory path
    | answer => answer

/-- Write a file, instead of the one that is there. What ends with a slash is never a file. -/
def write (tree : FileTree) (path : String) (bytes : ByteArray) : Except FileFault FileTree := do
  let (within, last) ← tree.approach path
  if path.endsWith "/" then .error .isADirectory
  else
    let place ← tree.descend within last.toList
    match tree.find? place with
    | some .directory => .error .isADirectory
    | _ => .ok (tree.insert place (.file bytes))

end FileTree

end Lockstep
