/-!
# Switches

A switch is a word with a dash in front of it by which a command is told something. Each one has a long
spelling, behind two dashes, and some have a short one, a letter behind a single dash. A switch may go
along with a value.
-/

namespace Lockstep.CommandLine

/-- What goes along with a switch. -/
inductive Operand where
  | nothing
  | path
  | text
  | number
  deriving DecidableEq, Repr

/-- The largest number that can be given. -/
def maxNumber : Nat := UInt64.size - 1

/-- A number: digits, with a plus in front of them or not. -/
def natural? (text : String) : Option Nat :=
  let digits := match text.toList with
    | '+' :: rest => rest
    | cs => cs
  if digits.isEmpty || !digits.all Char.isDigit then none
  else some (Nat.ofDigitChars 10 digits 0) |>.filter (· ≤ maxNumber)

/-- A text may be given where this is asked for. Every text names a path, except the empty one. -/
def Operand.admits (operand : Operand) (text : String) : Bool :=
  match operand with
  | .nothing => text.isEmpty
  | .path => !text.isEmpty
  | .text => true
  | .number => (natural? text).isSome

/-- The switches of all commands. -/
inductive Switch where
  | help
  | version
  /-- Show what was counted. -/
  | metrics
  | verbose
  | silent
  /-- A settings file. It may be given several times. -/
  | settingsFile
  | goldenTrace
  | deviceTrace
  | goldenDirectory
  | deviceDirectory
  /-- Where results are kept. -/
  | output
  | workers
  | wordBoundaryStores
  | reorderWindow
  /-- A mismatch is a failure. -/
  | strict
  | isa
  | memory
  | timeout
  deriving DecidableEq, Repr

namespace Switch

/-- The long spelling. -/
def long : Switch → String
  | .help => "help"
  | .version => "version"
  | .metrics => "metrics"
  | .verbose => "verbose"
  | .silent => "silent"
  | .settingsFile => "config"
  | .goldenTrace => "spike-trace"
  | .deviceTrace => "dut-trace"
  | .goldenDirectory => "spike-trace-dir"
  | .deviceDirectory => "dut-trace-dir"
  | .output => "output"
  | .workers => "jobs"
  | .wordBoundaryStores => "word-boundary-stores"
  | .reorderWindow => "reorder-window"
  | .strict => "strict"
  | .isa => "isa"
  | .memory => "memory"
  | .timeout => "timeout"

/-- The letter of the short spelling. -/
def letter? : Switch → Option Char
  | .help => some 'h'
  | .version => some 'V'
  | .verbose => some 'v'
  | .silent => some 'q'
  | .goldenTrace => some 's'
  | .deviceTrace => some 'd'
  | .goldenDirectory => some 'S'
  | .deviceDirectory => some 'D'
  | .output => some 'o'
  | .workers => some 'j'
  | _ => none

/-- What goes along with the switch. -/
def operand : Switch → Operand
  | .settingsFile | .goldenTrace | .deviceTrace | .goldenDirectory | .deviceDirectory | .output =>
    .path
  | .workers | .reorderWindow | .timeout => .number
  | .isa | .memory => .text
  | .help | .version | .metrics | .verbose | .silent | .wordBoundaryStores | .strict => .nothing

/-- The switch has a value. -/
def takesValue (switch : Switch) : Bool := switch.operand != .nothing

/-- The switch may be given several times. -/
def repeats (switch : Switch) : Bool := switch == .settingsFile

end Switch

end Lockstep.CommandLine
