import Lockstep.CommandLine.Arguments
import Lockstep.Settings.File
import Lockstep.Simulator

/-!
# Commands

An `Invocation` is a command with what it is told, as the arguments of the program describe it. Some
switches concern every command. They may stand in front of the command and behind its name; where both
places say which settings files there are, the place behind the name counts.

The switches about a verification are the last layer over the settings files.
-/

namespace Lockstep.CommandLine

/-- What is said about a verification beside the settings files. -/
structure VerifyFlags where
  wordBoundaryStores : Bool := false
  reorderWindow : Option Nat := none
  /-- A mismatch is a failure. -/
  strict : Bool := false
  deriving DecidableEq, Repr

namespace VerifyFlags

/-- The settings with what the flags say. -/
def applyTo (flags : VerifyFlags) (settings : Settings) : Settings :=
  { settings with
    wordBoundaryStores := settings.wordBoundaryStores || flags.wordBoundaryStores
    reorderWindow := flags.reorderWindow.getD settings.reorderWindow }

/-- The settings from files, with the flags as the last layer, and what is told of the files. -/
def settings (flags : VerifyFlags) (paths : List String) (files : FileTree) :
    List Event × Except Error Settings :=
  let (events, loaded) := Settings.load files paths
  (events, loaded.bind fun settings => (flags.applyTo settings).validate.mapError .invalidSettings)

end VerifyFlags

/-- What the program can be asked to do. -/
inductive Command where
  /-- Verify one pair of traces. -/
  | compare (golden device : String) (output : Option String) (flags : VerifyFlags)
  /-- Verify every pair of traces in two directories. -/
  | batch (goldenDirectory deviceDirectory : String) (output : Option String) (workers : Nat)
      (flags : VerifyFlags)
  /-- Make golden traces of a program or of every program in a directory. -/
  | golden (input output : String) (options : SimulatorOptions)
  /-- Make a golden trace of a commit log. -/
  | parseLog (input output : String)
  deriving DecidableEq, Repr

/-- What is said about the verification. -/
def Command.flags : Command → VerifyFlags
  | .compare _ _ _ flags => flags
  | .batch _ _ _ _ flags => flags
  | _ => {}

/-- The files and directories that are named. -/
def Command.paths : Command → List String
  | .compare goldenTrace device output _ => [goldenTrace, device] ++ output.toList
  | .batch goldenDirectory deviceDirectory output _ _ =>
    [goldenDirectory, deviceDirectory] ++ output.toList
  | .golden input output _ => [input, output]
  | .parseLog input output => [input, output]

/-- A command, and what is said beside it. -/
structure Invocation where
  command : Command
  settingsFiles : List String := []
  /-- Show what was counted. -/
  metrics : Bool := false
  /-- The least level of events that are shown, if any are. -/
  shown : Option Level := some .info
  deriving DecidableEq, Repr

namespace Invocation

/-- The files and directories that are named. -/
def paths (invocation : Invocation) : List String :=
  invocation.settingsFiles ++ invocation.command.paths

def shows (invocation : Invocation) (event : Event) : Bool :=
  match invocation.shown with
  | some least => least.weight ≤ event.level.weight
  | none => false

end Invocation

/-! ## From arguments -/

inductive CommandName where
  | compare
  | batch
  | golden
  | parseLog
  deriving DecidableEq, Repr

namespace CommandName

def all : List CommandName := [.compare, .batch, .golden, .parseLog]

/-- The name as it is given. -/
def text : CommandName → String
  | .compare => "compare"
  | .batch => "batch"
  | .golden => "golden"
  | .parseLog => "parse-log"

/-- The switches that concern every command. -/
def commonSwitches : List Switch := [.help, .metrics, .verbose, .silent, .settingsFile]

/-- The switches about a verification. -/
def verifySwitches : List Switch := [.wordBoundaryStores, .reorderWindow, .strict]

/-- What may be given behind the name. -/
def grammar : CommandName → Grammar
  | .compare => {
      switches := commonSwitches ++ [.goldenTrace, .deviceTrace, .output] ++ verifySwitches }
  | .batch => {
      switches := commonSwitches ++ [.goldenDirectory, .deviceDirectory, .output, .workers] ++
        verifySwitches }
  | .golden => {
      switches := commonSwitches ++ [.output, .isa, .memory, .timeout]
      words := 1 }
  | .parseLog => {
      switches := commonSwitches ++ [.output]
      words := 1 }

end CommandName

/-- The name by which help is asked for. -/
def helpName : String := "help"

/-- What may be given in front of a command. -/
def outerGrammar : Grammar where
  switches := CommandName.commonSwitches ++ [.version]
  commands := helpName :: CommandName.all.map CommandName.text

/-- What is said about a verification. -/
def VerifyFlags.ofGiven (given : Given) : VerifyFlags where
  wordBoundaryStores := given.has .wordBoundaryStores
  reorderWindow := given.number? .reorderWindow
  strict := given.has .strict

/-- The word that has to be given. -/
def Given.requiredWord (given : Given) : Except Ending String :=
  match given.words with
  | word :: _ => .ok word
  | [] => .error (.misuse .missingWord)

/-- Where golden traces are kept if nothing else is said. -/
def defaultOutput : String := "output"

/-- How the simulator is to be called. A time limit is given in seconds. -/
def Given.simulatorOptions (given : Given) : SimulatorOptions :=
  let defaults : SimulatorOptions := {}
  { isa := (given.value? .isa).getD defaults.isa
    memory := (given.value? .memory).getD defaults.memory
    timeout := ((given.number? .timeout).map (· * 1000)).getD defaults.timeout }

/-- The command that a name and what was given behind it describe. -/
def CommandName.command (name : CommandName) (given : Given) : Except Ending Command := do
  match name with
  | .compare =>
    return .compare (← given.required .goldenTrace) (← given.required .deviceTrace)
      (given.value? .output) (.ofGiven given)
  | .batch =>
    return .batch (← given.required .goldenDirectory) (← given.required .deviceDirectory)
      (given.value? .output) ((given.number? .workers).getD 0) (.ofGiven given)
  | .golden =>
    return .golden (← given.requiredWord) ((given.value? .output).getD defaultOutput)
      given.simulatorOptions
  | .parseLog => return .parseLog (← given.requiredWord) (← given.required .output)

/-- Two switches that contradict each other must not be given at one place. -/
def Given.checkConflict (given : Given) : Except Ending Unit :=
  if given.has .verbose && given.has .silent then .error (.misuse (.conflict .silent .verbose))
  else .ok ()

/-- The least level of events that are shown: to be verbose goes before to be silent. -/
def shownLevel (verbose silent : Bool) : Option Level :=
  if verbose then some .debug else if silent then none else some .info

/-- Help is asked for, about nothing or about a command. -/
def helpEnding : List String → Ending
  | [] => .help
  | [topic] =>
    if outerGrammar.commands.contains topic then .help else .misuse (.unexpectedWord topic)
  | _ :: other :: _ => .misuse (.unexpectedWord other)

/-- What the arguments of the program ask for. -/
def Invocation.ofArguments (arguments : List String) : Except Ending Invocation := do
  let (outer, continued) ← readArguments outerGrammar none arguments {}
  match continued with
  | none => throw (.misuse .missingCommand)
  | some (word, rest) =>
    match CommandName.all.find? (·.text == word) with
    | none => throw (helpEnding rest)
    | some name =>
      let (inner, _) ← readArguments name.grammar none rest {}
      inner.checkConflict
      let command ← name.command inner
      outer.checkConflict
      let either (switch : Switch) : Bool := outer.has switch || inner.has switch
      return {
        command
        settingsFiles :=
          if inner.has .settingsFile then inner.values .settingsFile
          else outer.values .settingsFile
        metrics := either .metrics
        shown := shownLevel (either .verbose) (either .silent) }

end Lockstep.CommandLine
