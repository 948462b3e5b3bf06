/-!
# Hexadecimal text

Numbers are written in lower case, either with exactly as many digits as they need or padded with
zeros to a fixed width. Reading takes both cases of the letters. The laws tie the two together:
`digit?_digit`, and `ofDigits_fixed`, by which a number below `16 ^ width` is read back from its
padded form.
-/

namespace Lockstep.Hex

/-- The lower-case digit of a number below sixteen. -/
def digit (n : Nat) : Char :=
  if n < 10 then Char.ofNat (48 + n) else Char.ofNat (87 + n)

/-- The value of a hexadecimal digit of either case. -/
def digit? (c : Char) : Option Nat :=
  if '0' ≤ c ∧ c ≤ '9' then some (c.toNat - 48)
  else if 'a' ≤ c ∧ c ≤ 'f' then some (c.toNat - 87)
  else if 'A' ≤ c ∧ c ≤ 'F' then some (c.toNat - 55)
  else none

/-- A digit from `0` to `9`, `a` to `f` or `A` to `F`. -/
def isDigit (c : Char) : Bool := (digit? c).isSome

/-- The number that a run of digits writes; what is not a digit counts as zero. -/
def ofDigits (digits : List Char) : Nat :=
  digits.foldl (fun n c => 16 * n + (digit? c).getD 0) 0

/-- The last `width` digits of a number, from the most significant on. -/
def fixed : (width : Nat) → Nat → List Char
  | 0, _ => []
  | width + 1, n => fixed width (n / 16) ++ [digit (n % 16)]

/-- The digits of a number without leading zeros; zero has one digit. -/
def digits (n : Nat) : List Char :=
  if n < 16 then [digit n] else digits (n / 16) ++ [digit (n % 16)]

/-- A number with as many digits as it needs. -/
def text (n : Nat) : String := "0x" ++ String.ofList (digits n)

/-- A word with all its eight digits. -/
def word (w : UInt32) : String := "0x" ++ String.ofList (fixed 8 w.toNat)

/-! ## Reading back -/

theorem digit?_digit {n : Nat} (h : n < 16) : digit? (digit n) = some n := by
  revert n; decide

@[simp] theorem length_fixed (width n : Nat) : (fixed width n).length = width := by
  induction width generalizing n with
  | zero => rfl
  | succ width ih => simp [fixed, ih]

theorem ofDigits_append_singleton (ds : List Char) (c : Char) :
    ofDigits (ds ++ [c]) = 16 * ofDigits ds + (digit? c).getD 0 := by
  simp [ofDigits]

theorem ofDigits_fixed {width n : Nat} (h : n < Nat.pow 16 width) : ofDigits (fixed width n) = n := by
  induction width generalizing n with
  | zero =>
    have : n < 1 := h
    simp [fixed, ofDigits]; omega
  | succ width ih =>
    have hq : n / 16 < Nat.pow 16 width := by
      rw [Nat.div_lt_iff_lt_mul (by decide)]; exact h
    rw [fixed, ofDigits_append_singleton, ih hq, digit?_digit (Nat.mod_lt _ (by decide))]
    simp only [Option.getD_some]
    omega

/-- A word is known by its text. -/
theorem word_injective {v w : UInt32} (h : word v = word w) : v = w := by
  have hl : fixed 8 v.toNat = fixed 8 w.toNat := by
    have := congrArg String.toList h
    simpa [word] using this
  have hv := @ofDigits_fixed 8 v.toNat v.toNat_lt
  have hw := @ofDigits_fixed 8 w.toNat w.toNat_lt
  rw [hl, hw] at hv
  exact UInt32.toNat_inj.1 hv.symm

end Lockstep.Hex
