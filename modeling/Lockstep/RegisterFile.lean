import Lockstep.Trace

/-!
# The shadow register file

Reconciliation keeps the register file as the golden trace has left it so far. It tells from it
which golden writes *repeat* the value that a register already has: a harness that reports changes
of the register file shows nothing for such a write. Register zero never changes, and an index
beyond the last register names nothing, so neither is ever a repeat.
-/

namespace Lockstep

/-- The values of all registers. -/
abbrev RegisterFile := Vector UInt32 registerCount

namespace RegisterFile

/-- Every register holds the same value. -/
def filled (value : UInt32) : RegisterFile := Vector.replicate registerCount value

/-- The value of a register, where the index names one. -/
def value? (file : RegisterFile) (reg : UInt8) : Option UInt32 := file[reg.toNat]?

/-- Perform a write. One to an index that names no register changes nothing. -/
def write (file : RegisterFile) (w : RegisterWrite) : RegisterFile :=
  file.setIfInBounds w.reg.toNat w.value

/-- The write puts into a register, other than register zero, the value that it has already. -/
def repeats (file : RegisterFile) (w : RegisterWrite) : Bool :=
  w.reg != 0 && file.value? w.reg == some w.value

theorem value?_filled {reg : UInt8} (h : reg.toNat < registerCount) (value : UInt32) :
    (filled value).value? reg = some value := by
  simp [value?, filled, h]

theorem value?_write (file : RegisterFile) (w : RegisterWrite) (reg : UInt8) :
    (file.write w).value? reg =
      if w.reg = reg ∧ reg.toNat < registerCount then some w.value else file.value? reg := by
  unfold write value?
  rw [Vector.getElem?_setIfInBounds]
  by_cases h : w.reg = reg
  · subst h
    by_cases hb : w.reg.toNat < registerCount
    · simp [hb]
    · simp [hb]
  · have hn : w.reg.toNat ≠ reg.toNat := fun e => h (UInt8.toNat_inj.1 e)
    simp [h, hn]

/-- Writing the value that a register has already changes nothing. -/
theorem write_of_value?_eq {file : RegisterFile} {w : RegisterWrite}
    (h : file.value? w.reg = some w.value) : file.write w = file := by
  obtain ⟨hb, hv⟩ := Vector.getElem?_eq_some_iff.1 h
  unfold write
  apply Vector.ext
  intro i hi
  rw [Vector.getElem_setIfInBounds]
  split
  · next e => subst e; exact hv.symm
  · rfl

/-- A repeated write leaves the register file as it is. -/
theorem write_of_repeats {file : RegisterFile} {w : RegisterWrite} (h : file.repeats w = true) :
    file.write w = file := by
  simp only [repeats, Bool.and_eq_true, beq_iff_eq] at h
  exact write_of_value?_eq h.2

end RegisterFile

end Lockstep
