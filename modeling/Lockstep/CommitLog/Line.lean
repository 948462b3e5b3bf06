import Lockstep.Text.Blank
import Lockstep.Text.Digit
import Lockstep.Text.Hex
import Lockstep.Trace

/-!
# Lines of a commit log

The reference simulator logs each retired instruction on a line of the form

    core   0: 3 0x00001004 (0x02028593) x11 0x00001020 mem 0x0000003c 0x00000005

where the register write and the memory access are there only if the instruction has them. Other
lines (warnings, output of the program) stand between them, and a commit may be preceded by other
text on its line. `commitAt?` reads a commit at the front of a text, `findCommit?` the first one that
a text holds anywhere; both give the digits as they are written (`Commit`). `Commit.entry` makes a
golden entry of them, or says what is wrong with them (`LineFault`).
-/

namespace Lockstep.CommitLog

/-! ## Reading by characters -/

/-- The text behind the given characters, if it begins with them. -/
def literal? : (expected cs : List Char) → Option (List Char)
  | [], cs => some cs
  | e :: expected, c :: cs => if e = c then literal? expected cs else none
  | _ :: _, [] => none

/-- The longest run of characters that satisfy `p`, which must not be empty, and the text behind. -/
def run? (p : Char → Bool) (cs : List Char) : Option (List Char × List Char) :=
  if (cs.takeWhile p).isEmpty then none else some (cs.takeWhile p, cs.dropWhile p)

/-- The text behind some white space. -/
def blanks? (cs : List Char) : Option (List Char) := (run? isBlank cs).map Prod.snd

/-- White space, `0x` and hexadecimal digits: the digits, and the text behind them. -/
def hexWord? (cs : List Char) : Option (List Char × List Char) := do
  run? Hex.isDigit (← literal? ['0', 'x'] (← blanks? cs))

/-! ## Commits as they are written -/

/-- A commit with the digits of its numbers. -/
structure Commit where
  pc : List Char
  instr : List Char
  /-- The number of the register and its value. -/
  register : Option (List Char × List Char) := none
  /-- The address and, for a write, the value. -/
  memory : Option (List Char × Option (List Char)) := none
  deriving DecidableEq, Repr

/-- The register write of a commit: `x`, a decimal number, and the value. -/
def register? (cs : List Char) : Option ((List Char × List Char) × List Char) := do
  let (number, cs) ← run? isDecimalDigit (← literal? ['x'] (← blanks? cs))
  let (value, cs) ← hexWord? cs
  return ((number, value), cs)

/-- The memory access of a commit: `mem`, the address, and the value if there is one. -/
def memory? (cs : List Char) : Option ((List Char × Option (List Char)) × List Char) := do
  let (address, cs) ← hexWord? (← literal? ['m', 'e', 'm'] (← blanks? cs))
  match hexWord? cs with
  | some (value, cs) => return ((address, some value), cs)
  | none => return ((address, none), cs)

/-- What every commit begins with, up to the instruction word: the digits of the program counter and
of the word, and the text behind them. -/
def head? (cs : List Char) : Option ((List Char × List Char) × List Char) := do
  let cs ← literal? ['c', 'o', 'r', 'e'] cs
  let (_, cs) ← run? isDecimalDigit (← blanks? cs)
  let cs ← literal? [':'] cs
  let (_, cs) ← run? isDecimalDigit (← blanks? cs)
  let (pc, cs) ← hexWord? cs
  let (instr, cs) ← run? Hex.isDigit (← literal? ['(', '0', 'x'] (← blanks? cs))
  let cs ← literal? [')'] cs
  return ((pc, instr), cs)

/-- The commit at the front of a text, if there is one. Whatever follows it is ignored. -/
def commitAt? (cs : List Char) : Option Commit := do
  let ((pc, instr), cs) ← head? cs
  let (register, cs) := match register? cs with
    | some (write, cs) => (some write, cs)
    | none => (none, cs)
  return { pc, instr, register, memory := (memory? cs).map Prod.fst }

/-- The first commit in a text. -/
def findCommit? : List Char → Option Commit
  | [] => none
  | c :: cs => commitAt? (c :: cs) <|> findCommit? cs

/-! ## From digits to a golden entry -/

/-- A number of a commit that is written in hexadecimal. -/
inductive HexField where
  | pc
  | instr
  | regVal
  | memAddr
  | memVal
  deriving DecidableEq, Repr

def HexField.text : HexField → String
  | .pc => "pc"
  | .instr => "instr"
  | .regVal => "rd_val"
  | .memAddr => "mem_addr"
  | .memVal => "mem_val"

/-- What can be wrong with a commit. -/
inductive LineFault where
  /-- The number needs more than 64 bits. -/
  | overlong (field : HexField) (digits : List Char)
  /-- The number needs more than 32 bits. -/
  | tooWide (field : HexField) (value : Nat)
  /-- There is no register of that number. -/
  | noSuchRegister (digits : List Char)
  deriving DecidableEq, Repr

def LineFault.message : LineFault → String
  | .overlong field digits =>
    s!"invalid {field.text} 0x{String.ofList digits}: number too large to fit in target type"
  | .tooWide field value => s!"{field.text} {Hex.text value} does not fit in 32 bits"
  | .noSuchRegister digits => s!"invalid register x{String.ofList digits}"

/-- The word that hexadecimal digits write. -/
def word (field : HexField) (digits : List Char) : Except LineFault UInt32 :=
  let value := Hex.ofDigits digits
  if UInt64.size ≤ value then .error (.overlong field digits)
  else if UInt32.size ≤ value then .error (.tooWide field value)
  else .ok (UInt32.ofNat value)

/-- The register that decimal digits name. -/
def registerNumber (digits : List Char) : Except LineFault UInt8 :=
  match asciiNumber? digits with
  | some n => if n < registerCount then .ok (UInt8.ofNat n) else .error (.noSuchRegister digits)
  | none => .error (.noSuchRegister digits)

/-- The golden entry of a commit. The numbers are looked at in the order in which they are written.
A write to register zero is dropped, for no hardware can show it; its value has to be a word all the
same. -/
def Commit.entry (commit : Commit) : Except LineFault GoldenEntry := do
  let pc ← word .pc commit.pc
  let instr ← word .instr commit.instr
  let write ← match commit.register with
    | some (number, value) => do
      let reg ← registerNumber number
      let value ← word .regVal value
      pure (if reg = 0 then none else some (reg, value))
    | none => pure none
  let memAddr ← match commit.memory with
    | some (address, _) => some <$> word .memAddr address
    | none => pure none
  let memVal ← match commit.memory with
    | some (_, some value) => some <$> word .memVal value
    | _ => pure none
  return {
    pc, instr, memAddr, memVal
    targetReg := write.map Prod.fst
    regVal := write.map Prod.snd }

/-- A line begins, in letters of either case, with the word of a warning. -/
def isWarning (line : List Char) : Bool :=
  (literal? "warning:".toList (line.map Char.toLower)).isSome

/-- The golden entry on a line. `none` if the line tells of no commit. -/
def parseLine (line : List Char) : Except LineFault (Option GoldenEntry) :=
  let line := trim line
  if isWarning line then .ok none
  else match findCommit? line with
    | some commit => some <$> commit.entry
    | none => .ok none

end Lockstep.CommitLog
