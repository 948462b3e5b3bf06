import Lockstep.CommandLine.Run

/-!
# The program

The outermost layer: it reads from the disk what the arguments name, carries out what they ask for on
the tree of files that results, and writes what has changed.

A directory of the disk is not listed here. For a batch, the paths of the traces are read from standard
input, one on a line. There is no simulator either: a simulator is a function, and whoever uses the
library supplies it.
-/

namespace Lockstep.Program

open CommandLine

/-- What stands at a path of the disk. -/
def probe (path : String) : IO (Option FileTree.Node) := do
  try
    return some (.file (← IO.FS.readBinFile path))
  catch
    | .inappropriateType .. => return some .directory
    | _ => return none

/-- A tree with all that the disk holds on the way from a place by steps. -/
def loadSteps (tree : FileTree) : FileTree.Place → List String → IO FileTree
  | _, [] => return tree
  | place, step :: rest => do
    if step = "." then loadSteps tree place rest
    else if step = ".." then loadSteps tree (FileTree.above place) rest
    else
      let next := place ++ [step]
      match tree.find? next with
      | some _ => loadSteps tree next rest
      | none =>
        match ← probe (FileTree.path next) with
        | some .directory => loadSteps (tree.insert next .directory) next rest
        | some node => return tree.insert next node
        | none => return tree

/-- A tree with all that the disk holds on the way of paths. -/
def load (paths : List String) : IO FileTree :=
  paths.foldlM (fun tree path => loadSteps tree (FileTree.origin path) (Path.steps path)) {}

/-- Write to the disk what has changed. A directory comes before what is in it. -/
def save (before after : FileTree) : IO Unit := do
  for ((_, place), node) in after.entries.reverse do
    if before.find? place != some node then
      match node with
      | .directory => IO.FS.createDirAll (FileTree.path place)
      | .file bytes => IO.FS.writeBinFile (FileTree.path place) bytes

/-- Print to the standard streams. -/
def print (printed : List Printed) : IO Unit :=
  printed.forM fun
    | .result text => IO.print text
    | .note line => IO.eprintln line

/-- The lines of standard input. -/
def inputLines : IO (List String) := do
  return (← (← IO.getStdin).readToEnd).splitOn "\n"

/-- The paths that an invocation looks at. -/
def pathsOf (invocation : Invocation) : IO (List String) := do
  match invocation.command with
  | .batch .. => return invocation.paths ++ (← inputLines)
  | _ => return invocation.paths

/-- Carry out an invocation on the disk. -/
def carryOut (invocation : Invocation) : IO Exit := do
  let files ← load (← pathsOf invocation)
  let (exit, session) := invocation.run {} { files }
  for event in session.events do
    if invocation.shows event then IO.eprintln event.text
  save files session.files
  return exit

end Lockstep.Program

/-- Carry out what the arguments ask for, and return the exit code. -/
def main (arguments : List String) : IO UInt32 := do
  let exit ← match Lockstep.CommandLine.Invocation.ofArguments arguments with
    | .ok invocation => Lockstep.Program.carryOut invocation
    | .error ending => pure ending.exit
  Lockstep.Program.print exit.printed
  return exit.code.toUInt32
