/-!
# Paths

A path is a text whose steps are separated by slashes. Empty steps mean nothing, a single dot stays in
place, and two dots go up. Only the functions on names are here: they look at the text alone.
-/

namespace Lockstep.Path

/-- The parts of a text between slashes. -/
def split (cs : List Char) : List (List Char) :=
  let (first, rest) := cs.foldr
    (fun c (part, parts) => if c = '/' then ([], part :: parts) else (c :: part, parts)) ([], [])
  first :: rest

/-- The steps of a path, without the empty ones. -/
def steps (path : String) : List String :=
  ((split path.toList).filter (!·.isEmpty)).map String.ofList

/-- The path starts at the root of all files. -/
def isAbsolute (path : String) : Bool := path.startsWith "/"

/-- The steps of a path that say something: a single dot does so only at the front of a path. -/
def properSteps (path : String) : List String :=
  match steps path with
  | [] => []
  | first :: rest =>
    let rest := rest.filter (· != ".")
    if first = "." ∧ isAbsolute path then rest else first :: rest

/-- A path below a directory. One that starts at the root stays as it is. -/
def join (directory path : String) : String :=
  if isAbsolute path || directory.isEmpty then path
  else if directory.endsWith "/" then directory ++ path
  else directory ++ "/" ++ path

/-- The last step of a path, if it is a name. -/
def fileName? (path : String) : Option String :=
  match ((steps path).filter (· != ".")).getLast? with
  | some ".." => none
  | name => name

/-- A text up to its last dot, and what is behind that dot. A dot in front does not count. -/
def splitExtension (name : String) : String × Option String :=
  let reversed := name.toList.reverse
  let behind := reversed.takeWhile (· != '.')
  match reversed.dropWhile (· != '.') with
  | _ :: front@(_ :: _) => (String.ofList front.reverse, some (String.ofList behind.reverse))
  | _ => (name, none)

/-- The last name of a path without what is behind its last dot. -/
def stem? (path : String) : Option String := (fileName? path).map fun name => (splitExtension name).1

/-- What is behind the last dot of the last name of a path. -/
def extension? (path : String) : Option String :=
  (fileName? path).bind fun name => (splitExtension name).2

/-- The name of the program that a file belongs to: the last name of its path up to the first dot. -/
def baseName (path : String) : String :=
  match fileName? path with
  | some name => String.ofList (name.toList.takeWhile (· != '.'))
  | none => ""

end Lockstep.Path
