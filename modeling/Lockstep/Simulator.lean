import Lockstep.Session
import Lockstep.Settings
import Lockstep.Text.Combining
import Lockstep.Text.Ignorable
import Lockstep.Text.Printable
import Lockstep.TraceFile

/-!
# Making golden traces

A golden trace is made by running the reference simulator on a program and reading its commit log. What
the simulator does with its arguments is given from outside, as a `Simulator`; the rest is here: where
the log is kept, how the run is told of, and what the ways in which it may end mean.
-/

namespace Lockstep

/-- How a run of the simulator ended. -/
inductive SimulatorEnd where
  /-- It ended by itself, with this code. -/
  | exited (code : Int)
  /-- It was ended by a signal. -/
  | killed
  /-- It went on for longer than it was given. -/
  | overran
  /-- There is no such program. -/
  | notFound
  /-- It could not be started. -/
  | refused (fault : FileFault)
  deriving DecidableEq, Repr

/-- The simulator was started. -/
def SimulatorEnd.started : SimulatorEnd → Bool
  | .notFound | .refused _ => false
  | .exited _ | .killed | .overran => true

/-- What a run of the simulator yields: all that it writes, and how it ends. -/
structure SimulatorRun where
  output : ByteArray := .empty
  ending : SimulatorEnd

/-- A simulator: the program, and what it does with its arguments. -/
structure Simulator where
  program : String
  run : List String → SimulatorRun

/-- How the simulator is called. -/
structure SimulatorOptions where
  /-- The instruction set. -/
  isa : String := "rv32i"
  /-- The memory layout: base and size. -/
  memory : String := "0x7ffff000:0x10000"
  /-- The time that a run is given, in milliseconds. -/
  timeout : Nat := 60000
  deriving DecidableEq, Repr

namespace Simulator

/-- The arguments for a program under test. -/
def arguments (options : SimulatorOptions) (elf : String) : List String :=
  ["--isa=" ++ options.isa, "--log-commits", "-m" ++ options.memory, elf]

/-! ## Calls as they are told of -/

/-- The character is seen where it stands alone. -/
def isPlain (c : Char) : Bool := isPrintable c && !isCombining c && !isIgnorable c

/-- A character of an argument between quotes. What is not seen where it stands alone is written by its
number. -/
def quotedChar (c : Char) : List Char :=
  if c = '\t' then ['\\', 't']
  else if c = '\n' then ['\\', 'n']
  else if c = '\r' then ['\\', 'r']
  else if c = '"' ∨ c = '\\' then ['\\', c]
  else if isPlain c then [c]
  else '\\' :: 'u' :: '\x7b' :: Hex.digits c.toNat ++ ['\x7d']

/-- A text cannot be an argument if it holds the character that ends an argument. -/
def canBeArgument (text : String) : Bool := !text.toList.contains '\x00'

/-- An argument between quotes. What cannot be an argument is not shown. -/
def quoted (argument : String) : String :=
  if canBeArgument argument then String.ofList ('"' :: argument.toList.flatMap quotedChar ++ ['"'])
  else "\"<string-with-nul>\""

/-- A call as it is told of. -/
def callText (program : String) (arguments : List String) : String :=
  String.intercalate " " ((program :: arguments).map quoted)

theorem isPlain_of_ascii {c : Char} (lower : 0x20 ≤ c.toNat) (upper : c.toNat < 0x7F) :
    isPlain c = true := by
  simp [isPlain, isPrintable_of_ascii lower upper,
    isCombining_eq_false_of_lt (show c.toNat < 0x300 by omega),
    isIgnorable_eq_false_of_lt (show c.toNat < 0xAD by omega)]

/-- A letter, a digit and all else in ASCII that is no control character stands for itself, but for the
quote and the backslash. -/
theorem quotedChar_of_ascii {c : Char} (lower : 0x20 ≤ c.toNat) (upper : c.toNat < 0x7F)
    (quote : c ≠ '"') (backslash : c ≠ '\\') : quotedChar c = [c] := by
  have tab : c ≠ '\t' := by rintro rfl; exact absurd lower (by decide)
  have feed : c ≠ '\n' := by rintro rfl; exact absurd lower (by decide)
  have carriage : c ≠ '\r' := by rintro rfl; exact absurd lower (by decide)
  simp [quotedChar, tab, feed, carriage, quote, backslash, isPlain_of_ascii lower upper]

/-! ## Runs -/

/-- The bytes that an argument may have. -/
def argumentLimit : Nat := 131071

/-- Call the simulator. An argument that cannot be given keeps it from being started, and a run that is
given no time at all is ended before it writes anything. -/
def call (simulator : Simulator) (options : SimulatorOptions) (arguments : List String) :
    SimulatorRun :=
  if !arguments.all canBeArgument then { ending := .refused .invalidArgument }
  else
    let run := simulator.run arguments
    if !run.ending.started then run
    else if arguments.any fun argument => argumentLimit < argument.utf8ByteSize then
      { ending := .refused .argumentTooLong }
    else if options.timeout = 0 then { ending := .overran }
    else run

/-- The name of what is made from a file. -/
def stem (path : String) : String := (Path.stem? path).getD "trace"

/-- What the end of a run means for its log. -/
def judge (options : SimulatorOptions) : SimulatorEnd → Except Error Unit
  | .exited code => if code = 0 then .ok () else .error (.simulatorFailed (some code))
  | .killed => .error (.simulatorFailed none)
  | .overran => .error (.simulatorTimeout (options.timeout / 1000))
  | .notFound => .error .simulatorNotFound
  | .refused fault => .error (.io fault)

/-- Run the simulator on a program, and keep its log in a directory, which is made if it is not there.
The log is kept also if the run fails. Gives the path of the log. -/
def runOn (simulator : Simulator) (elf directory : String) (options : SimulatorOptions) :
    Action String := do
  Action.change fun files => (files.createDirectories directory).mapError (.file directory)
  let log := Path.join directory (stem elf ++ TraceFile.logSuffix)
  let keep (output : ByteArray) (files : FileTree) : Except Error FileTree :=
    (files.write log output).mapError (.file log)
  Action.change (keep .empty)
  let arguments := arguments options elf
  Action.tell [{
    level := .debug
    message := "running " ++ callText simulator.program arguments }]
  let run := simulator.call options arguments
  Action.change (keep run.output)
  Action.ask fun _ => judge options run.ending
  return log

/-- Run the simulator on a program, and write the part of its log that the filter keeps as a golden
trace. Gives the path of the trace. -/
def generate (simulator : Simulator) (elf directory : String) (options : SimulatorOptions)
    (filter : LogFilter) : Action String := do
  let log ← simulator.runOn elf directory options
  let entries := filter.apply (← Action.ask (TraceFile.readLog log))
  let golden := Path.join directory (stem log ++ TraceFile.goldenSuffix)
  Action.change (TraceFile.writeGolden golden entries)
  Action.tell [{
    level := .info
    message := s!"wrote {entries.length} golden entries to {golden}" }]
  return golden

end Simulator

/-- The programs under test in a directory, in ascending order. -/
def findPrograms (directory : String) (files : FileTree) : Except Error (List String) := do
  let names ← (files.names directory).mapError (.file directory)
  let programs := names.filter fun name =>
    files.isFile (Path.join directory name) && Path.extension? name == some "elf"
  return (programs.mergeSort fun a b => decide (a ≤ b)).map (Path.join directory)

end Lockstep
