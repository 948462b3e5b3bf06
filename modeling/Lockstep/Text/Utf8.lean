/-!
# Text in UTF-8

`decodeLossy` reads bytes as UTF-8 and never fails: wherever the bytes break off a character, or
cannot begin one, the longest part that could have begun a character is read as one replacement
character, and reading goes on behind it.
-/

namespace Lockstep.Utf8

/-- The character that stands for what is not text. -/
def replacement : Char := '\ufffd'

/-- The ranges that the bytes after a first byte lie in: one range for each byte that follows it.
`none` for a byte that begins no character. -/
def following (first : UInt8) : Option (List (UInt8 × UInt8)) :=
  let any : UInt8 × UInt8 := (0x80, 0xBF)
  if first < 0x80 then some []
  else if first < 0xC2 then none
  else if first < 0xE0 then some [any]
  else if first = 0xE0 then some [(0xA0, 0xBF), any]
  else if first = 0xED then some [(0x80, 0x9F), any]
  else if first < 0xF0 then some [any, any]
  else if first = 0xF0 then some [(0x90, 0xBF), any, any]
  else if first < 0xF4 then some [any, any, any]
  else if first = 0xF4 then some [(0x80, 0x8F), any, any]
  else none

/-- The bytes at the front that lie in the given ranges, each in its own. -/
def matching : List (UInt8 × UInt8) → List UInt8 → List UInt8
  | (low, high) :: ranges, b :: bytes =>
    if low ≤ b ∧ b ≤ high then b :: matching ranges bytes else []
  | _, _ => []

/-- The bits that a first byte adds to the number of its character. -/
def leading (first : UInt8) : Nat :=
  if first < 0x80 then first.toNat
  else if first < 0xE0 then first.toNat % 0x20
  else if first < 0xF0 then first.toNat % 0x10
  else first.toNat % 0x08

/-- The character of a first byte and the bytes after it. -/
def character (first : UInt8) (rest : List UInt8) : Char :=
  Char.ofNat (rest.foldl (fun n b => 0x40 * n + b.toNat % 0x40) (leading first))

/-- Read bytes as text. -/
def decodeLossy : List UInt8 → List Char
  | [] => []
  | first :: bytes =>
    match following first with
    | none => replacement :: decodeLossy bytes
    | some ranges =>
      let rest := matching ranges bytes
      let c := if rest.length = ranges.length then character first rest else replacement
      c :: decodeLossy (bytes.drop rest.length)
termination_by bytes => bytes.length
decreasing_by
  all_goals simp only [List.length_cons, List.length_drop]
  all_goals omega

end Lockstep.Utf8
