/-!
# Doubles with a fixed number of decimal places

A finite double is `m · 2 ^ e` for a natural number `m` and an integer `e`, which are read from its
bits. So its rounding to some decimal places is a division of natural numbers (`roundDiv`), and exact:
the nearest number with that many places, and of two equally near ones the even one.
-/

namespace Lockstep.Decimal

/-- The quotient of two numbers rounded to the nearest integer; a half goes to the even one. -/
def roundDiv (num den : Nat) : Nat :=
  let q := num / den
  let twice := 2 * (num % den)
  if twice < den ∨ (twice = den ∧ q % 2 = 0) then q else q + 1

/-- The rounded quotient is within half a unit of the exact one. -/
theorem two_mul_dist_roundDiv_le {num den : Nat} (h : 0 < den) :
    2 * (roundDiv num den * den) ≤ 2 * num + den ∧
      2 * num ≤ 2 * (roundDiv num den * den) + den := by
  have split := Nat.div_add_mod num den
  have small := Nat.mod_lt num h
  have flip : num / den * den = den * (num / den) := Nat.mul_comm _ _
  unfold roundDiv
  simp only
  split
  · constructor <;> omega
  · rw [Nat.add_mul]
    constructor <;> omega

/-- The sign bit of a double. -/
def isNegative (x : Float) : Bool := x.toBits >>> 63 == 1

/-- The bits of a double that hold its exponent. -/
def exponentBits (x : Float) : Nat := ((x.toBits >>> 52) &&& 0x7FF).toNat

/-- The bits of a double that hold its fraction. -/
def fractionBits (x : Float) : Nat := (x.toBits &&& 0xFFFFFFFFFFFFF).toNat

/-- The size of a finite double times `10 ^ places`, rounded. -/
def scaled (places : Nat) (x : Float) : Nat :=
  let e := exponentBits x
  let m := if e = 0 then fractionBits x else 0x10000000000000 + fractionBits x
  let power := max e 1
  if 1075 ≤ power then m * Nat.pow 2 (power - 1075) * Nat.pow 10 places
  else roundDiv (m * Nat.pow 10 places) (Nat.pow 2 (1075 - power))

/-- A number of the given count of digits at least, filled up with zeros in front. -/
def padded (count n : Nat) : String :=
  let digits := toString n
  String.ofList (List.replicate (count - digits.length) '0') ++ digits

/-- A double with a point and the given number of places behind it. -/
def fixed (places : Nat) (x : Float) : String :=
  let sign := if isNegative x then "-" else ""
  if exponentBits x = 0x7FF then
    if fractionBits x = 0 then sign ++ "inf" else "NaN"
  else
    let n := scaled places x
    sign ++ toString (n / Nat.pow 10 places) ++ "." ++ padded places (n % Nat.pow 10 places)

end Lockstep.Decimal
