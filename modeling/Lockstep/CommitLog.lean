import Lockstep.CommitLog.Line
import Lockstep.Settings
import Lockstep.Text.Utf8

/-!
# Commit logs

`CommitLog.parse` reads the golden entries of a whole log. A log is bytes: the program under test
writes into it too, so a line is read as text whatever its bytes are. Reading stops at the first line
with a malformed commit.

`LogFilter.apply` keeps the part of a log that belongs to the test program: it drops the boot code of
the simulator, and what follows the clean-up sequence that ends an architecture test.
-/

namespace Lockstep

namespace CommitLog

/-- The lines of a log, without their line ends. -/
def lines (log : List UInt8) : List (List UInt8) :=
  match _h : log.dropWhile (· != 0x0A) with
  | [] => [log]
  | _ :: rest => log.takeWhile (· != 0x0A) :: lines rest
termination_by log.length
decreasing_by
  have shorter := (List.dropWhile_suffix (· != (0x0A : UInt8)) (l := log)).length_le
  rw [_h] at shorter
  simp only [List.length_cons] at shorter
  omega

/-- The entries of lines, the first of which has the given number. A malformed line is reported with
its number. -/
def entriesFrom :
    (number : Nat) → List (List UInt8) → Except (Nat × LineFault) (List GoldenEntry)
  | _, [] => .ok []
  | number, line :: rest =>
    match parseLine (Utf8.decodeLossy line) with
    | .error fault => .error (number, fault)
    | .ok commit => (commit.toList ++ ·) <$> entriesFrom (number + 1) rest

/-- The golden entries of a log, or the number of its first malformed line and what is wrong there.
Lines are counted from 1. -/
def parse (log : List UInt8) : Except (Nat × LineFault) (List GoldenEntry) :=
  entriesFrom 1 (lines log)

end CommitLog

namespace LogFilter

/-- The first instruction of the clean-up sequence: `li ra, 1`. -/
def cleanupFirst : Instruction := 0x00100093

/-- The second instruction of the clean-up sequence: `auipc t2, 0x1`. -/
def cleanupSecond : Instruction := 0x00001397

/-- The entry is not boot code. -/
def keeps (filter : LogFilter) (entry : GoldenEntry) : Bool :=
  match filter.debugRom with
  | some (first, last) => !(first ≤ entry.pc && entry.pc ≤ last)
  | none => true

/-- The place of the first clean-up sequence. -/
def cleanup? : List GoldenEntry → Option Nat
  | a :: b :: rest =>
    if a.instr = cleanupFirst ∧ b.instr = cleanupSecond then some 0
    else (cleanup? (b :: rest)).map (· + 1)
  | _ => none

/-- The part of a golden log that belongs to the test program. The store that follows the clean-up
sequence still does. -/
def apply (filter : LogFilter) (entries : List GoldenEntry) : List GoldenEntry :=
  let kept := entries.filter filter.keeps
  if filter.stopAtTestCleanup then
    match cleanup? kept with
    | some place => kept.take (place + 3)
    | none => kept
  else kept

end LogFilter

end Lockstep
