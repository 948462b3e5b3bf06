import Lockstep.Instruction
import Mathlib.Algebra.Group.Nat.Defs

/-!
# Byte lanes

A memory write is seen as a whole bus word, and a store wrote some of its bytes: those from its lane on, as
many as it is wide, and none behind the end of the word. `StoreWidth.narrow` gets them by a shift and a mask.
Here the shift and the mask are told as division and remainder (`toNat_narrow`), and from there as bytes:
the narrowed value says what was written and nothing else (`narrow_eq_narrow_iff`).
-/

namespace Lockstep

/-- A byte of a bus word, the lowest of which is byte zero. -/
def byteAt (word : UInt32) (k : Nat) : Nat := word.toNat / 2 ^ (8 * k) % 2 ^ 8

/-- The lane that the low two bits of an address name. -/
def lane (address : UInt32) : Nat := (address &&& 3).toNat

namespace StoreWidth

/-- The first byte of the bus word that a store to the address wrote. -/
def start (address : UInt32) : StoreWidth → Nat
  | .byte | .half => lane address
  | .word => 0

/-- The byte is one of those that a store to the address wrote. -/
def Writes (width : StoreWidth) (address : UInt32) (k : Nat) : Prop :=
  width.start address ≤ k ∧ k < min (width.start address + width.bytes) 4

instance (width : StoreWidth) (address : UInt32) (k : Nat) : Decidable (width.Writes address k) :=
  inferInstanceAs (Decidable (_ ∧ _))

theorem Writes.lt_four {width : StoreWidth} {address : UInt32} {k : Nat}
    (h : width.Writes address k) : k < 4 :=
  Nat.lt_of_lt_of_le h.2 (Nat.min_le_right _ _)

end StoreWidth

/-! ## Shifts and masks -/

theorem lane_lt (address : UInt32) : lane address < 4 := by
  have hle : (address &&& 3).toNat ≤ 3 := by
    rw [UInt32.toNat_and]
    exact Nat.and_le_right
  exact Nat.lt_succ_of_le hle

theorem toNat_shiftRight_lane (raw address : UInt32) :
    (raw >>> (8 * (address &&& 3))).toNat = raw.toNat / 2 ^ (8 * lane address) := by
  have hlane := lane_lt address
  have hshift : (8 * (address &&& 3)).toNat = 8 * lane address := by
    rw [UInt32.toNat_mul]
    show 8 * lane address % 2 ^ 32 = 8 * lane address
    omega
  rw [UInt32.toNat_shiftRight, hshift, Nat.shiftRight_eq_div_pow]
  congr 2
  omega

namespace StoreWidth

/-- What `narrow` computes, in terms of numbers. -/
theorem toNat_narrow (width : StoreWidth) (raw address : UInt32) :
    (width.narrow raw address).toNat =
      raw.toNat / 2 ^ (8 * width.start address) % 2 ^ (8 * width.bytes) := by
  cases width with
  | byte =>
      show ((raw >>> (8 * (address &&& 3))) &&& 0xFF).toNat = _
      rw [UInt32.toNat_and, toNat_shiftRight_lane]
      exact Nat.and_two_pow_sub_one_eq_mod _ 8
  | half =>
      show ((raw >>> (8 * (address &&& 3))) &&& 0xFFFF).toNat = _
      rw [UInt32.toNat_and, toNat_shiftRight_lane]
      exact Nat.and_two_pow_sub_one_eq_mod _ 16
  | word =>
      rw [narrow_word]
      have hlt : raw.toNat < 2 ^ 32 := raw.toNat_lt
      show raw.toNat = raw.toNat / 2 ^ 0 % 2 ^ 32
      omega

/-- What was written fits into the bytes that were written. -/
theorem narrow_lt (width : StoreWidth) (raw address : UInt32) :
    (width.narrow raw address).toNat < 2 ^ (8 * width.bytes) := by
  rw [toNat_narrow]
  exact Nat.mod_lt _ (Nat.two_pow_pos _)

end StoreWidth

/-! ## Bytes -/

/-- Two numbers agree on a row of bytes, taken together, exactly if they agree on each of them. -/
theorem bytes_eq_iff (x y start count : Nat) :
    x / 2 ^ (8 * start) % 2 ^ (8 * count) = y / 2 ^ (8 * start) % 2 ^ (8 * count) ↔
      ∀ k, start ≤ k → k < start + count → x / 2 ^ (8 * k) % 2 ^ 8 = y / 2 ^ (8 * k) % 2 ^ 8 := by
  induction count generalizing start with
  | zero =>
      refine iff_of_true ?_ fun k hle hlt => by omega
      rw [Nat.mul_zero, Nat.pow_zero, Nat.mod_one, Nat.mod_one]
  | succ count ih =>
      -- The lowest byte of the row, and the rest of it.
      have hsplit : ∀ z : Nat, z / 2 ^ (8 * start) % 2 ^ (8 * (count + 1)) =
          z / 2 ^ (8 * start) % 2 ^ 8 +
            2 ^ 8 * (z / 2 ^ (8 * (start + 1)) % 2 ^ (8 * count)) := by
        intro z
        rw [Nat.mul_add 8 count 1, Nat.add_comm (8 * count), Nat.pow_add, Nat.mod_mul,
          Nat.div_div_eq_div_mul, ← Nat.pow_add, Nat.mul_add 8 start 1]
      rw [hsplit x, hsplit y]
      have hx : x / 2 ^ (8 * start) % 2 ^ 8 < 2 ^ 8 := Nat.mod_lt _ (Nat.two_pow_pos 8)
      have hy : y / 2 ^ (8 * start) % 2 ^ 8 < 2 ^ 8 := Nat.mod_lt _ (Nat.two_pow_pos 8)
      constructor
      · intro heq k hle hlt
        have hlow : x / 2 ^ (8 * start) % 2 ^ 8 = y / 2 ^ (8 * start) % 2 ^ 8 := by omega
        have hrest : x / 2 ^ (8 * (start + 1)) % 2 ^ (8 * count) =
            y / 2 ^ (8 * (start + 1)) % 2 ^ (8 * count) := by omega
        rcases Nat.eq_or_lt_of_le hle with rfl | hle
        · exact hlow
        · exact (ih (start + 1)).1 hrest k hle (by omega)
      · intro h
        have hrest := (ih (start + 1)).2 fun k hle hlt => h k (by omega) (by omega)
        rw [h start (Nat.le_refl _) (by omega), hrest]

/-- A word has four bytes. -/
theorem byteAt_of_four_le (word : UInt32) {k : Nat} (h : 4 ≤ k) : byteAt word k = 0 := by
  have hlt : word.toNat < 2 ^ (8 * k) :=
    Nat.lt_of_lt_of_le word.toNat_lt (Nat.pow_le_pow_right (by decide) (by omega))
  rw [byteAt, Nat.div_eq_of_lt hlt, Nat.zero_mod]

/-- **The narrowed value is that of the bytes that were written.** -/
theorem StoreWidth.narrow_eq_narrow_iff (width : StoreWidth) (raw other address : UInt32) :
    width.narrow raw address = width.narrow other address ↔
      ∀ k, width.Writes address k → byteAt raw k = byteAt other k := by
  rw [← UInt32.toNat_inj, toNat_narrow, toNat_narrow, bytes_eq_iff]
  constructor
  · rintro h k ⟨hle, hlt⟩
    exact h k hle (Nat.lt_of_lt_of_le hlt (Nat.min_le_left _ _))
  · intro h k hle hlt
    rcases Nat.lt_or_ge k 4 with hfour | hfour
    · exact h k ⟨hle, Nat.lt_min.2 ⟨hlt, hfour⟩⟩
    · -- A half store to the last lane would go on behind the end of the word.
      exact (byteAt_of_four_le raw hfour).trans (byteAt_of_four_le other hfour).symm

/-- A half store to the last lane wrote one byte. -/
example :
    StoreWidth.half.narrow 0xab000000 0x103 = 0xab ∧ ∀ k < 4, StoreWidth.half.Writes 0x103 k ↔ k = 3 := by
  decide

end Lockstep
