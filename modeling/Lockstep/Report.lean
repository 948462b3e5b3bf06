import Lockstep.Mismatch
import Lockstep.Text.Hex

/-!
# The report on one program

A report is a header with the number of mismatches and, for each of them, its kind and two lines
with the golden record and the device record. On a terminal the header is coloured.
-/

namespace Lockstep

/-- How a line of a report is set off on a terminal. -/
inductive Highlight where
  | green
  | boldRed
  deriving DecidableEq, Repr

/-- A text between the control sequences that set it off and the one that ends it. Without colours
the text stays as it is. -/
def Highlight.apply (colors : Bool) (highlight : Highlight) (text : String) : String :=
  if !colors then text
  else match highlight with
    | .green => "\x1b[32m" ++ text ++ "\x1b[0m"
    | .boldRed => "\x1b[31m\x1b[1m" ++ text ++ "\x1b[0m"

namespace Report

/-- A word with its eight digits, or a dash. -/
def field : Option UInt32 → String
  | some value => Hex.word value
  | none => "-"

/-- The fields of a record: always the fetch, the register only where it has a number, and memory
where it has an address or a value. -/
def fields (record : Record) : String :=
  let register := match record.targetReg with
    | some reg => s!" x{reg}=" ++ field record.regVal
    | none => ""
  let memory :=
    if record.memAddr.isSome || record.memVal.isSome then
      " mem[" ++ field record.memAddr ++ "]=" ++ field record.memVal
    else ""
  "pc=" ++ field record.pc ++ " instr=" ++ field record.instr ++ register ++ memory

/-- The label of the lines with golden records. -/
def goldenLabel : String := "golden"

/-- The label of the lines with device records, as long as the other one. -/
def deviceLabel : String := "dut   "

/-- One record on a line of its own. -/
def line (label : String) (record : Record) : String :=
  "  " ++ label ++ " " ++ fields record ++ "\n"

/-- One mismatch on three lines. -/
def mismatch (m : Mismatch) : String :=
  s!"#{m.index} {m.kind.text}\n" ++ line goldenLabel m.golden ++ line deviceLabel m.device

/-- The report on a program. -/
def render (colors : Bool) (name : String) (mismatches : List Mismatch) : String :=
  if mismatches.isEmpty then
    Highlight.green.apply colors s!"No mismatches found for {name}" ++ "\n"
  else
    Highlight.boldRed.apply colors s!"{mismatches.length} mismatch(es) found for {name}" ++ "\n"
      ++ String.join (mismatches.map mismatch)

end Report

end Lockstep
