import Lockstep.Text.CharRanges

/-!
# Ignorable characters

The characters with the Unicode property `Default_Ignorable_Code_Point`: fillers, joiners, selectors of
variants and the like. Where they have no effect on their neighbours, nothing is shown for them. Some
are letters, so that not to be a control character is not enough to be seen. No ASCII character is among
them.
-/

namespace Lockstep

/-- The characters for which nothing may be shown. -/
def ignorableRanges : CharRanges :=
  [(0xAD, 0xAD), (0x34F, 0x34F), (0x61C, 0x61C), (0x115F, 0x1160), (0x17B4, 0x17B5),
   (0x180B, 0x180F), (0x200B, 0x200F), (0x202A, 0x202E), (0x2060, 0x206F), (0x3164, 0x3164),
   (0xFE00, 0xFE0F), (0xFEFF, 0xFEFF), (0xFFA0, 0xFFA0), (0xFFF0, 0xFFF8), (0x1BCA0, 0x1BCA3),
   (0x1D173, 0x1D17A), (0xE0000, 0xE0FFF)]

/-- Nothing may be shown for the character. -/
def isIgnorable (c : Char) : Bool := ignorableRanges.contains c

theorem ignorableRanges_ascend : CharRanges.ascendFrom 0xAD ignorableRanges = true := by
  decide +kernel

theorem isIgnorable_eq_false_of_lt {c : Char} (h : c.toNat < 0xAD) : isIgnorable c = false :=
  CharRanges.contains_eq_false_of_lt ignorableRanges_ascend h

end Lockstep
