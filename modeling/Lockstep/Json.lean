import Lockstep.Json.Reader
import Lockstep.Text.Decimal

/-!
# JSON values

A `Json` value as it is written: numbers keep their digits, and an object keeps the order of its
members. `Json.text` writes a value over several lines, two blanks to a level. `Json.parse` reads one,
with a bound on how deep values may be nested and how large numbers may be.
-/

namespace Lockstep

inductive Json where
  | null
  | bool (value : Bool)
  | number (numeral : Json.Numeral)
  | string (text : String)
  | array (elements : List Json)
  | object (members : List (String × Json))

namespace Json

/-! ## Writing -/

/-- A natural number as a value. -/
def nat (n : Nat) : Json := .number { whole := (toString n).toList }

/-- A value, or `null`. -/
def orNull {α : Type} (write : α → Json) : Option α → Json
  | some a => write a
  | none => .null

/-- A number as it is written. -/
def Numeral.text (n : Numeral) : List Char :=
  (if n.negative then ['-'] else []) ++ n.whole ++
    (match n.fraction with
      | some digits => '.' :: digits
      | none => []) ++
    (match n.exponent with
      | some (negative, digits) => 'e' :: (if negative then ['-'] else []) ++ digits
      | none => [])

/-- A line end, and two blanks for each level. -/
def newline (level : Nat) : List Char := '\n' :: List.replicate (2 * level) ' '

mutual

/-- A value over several lines, the first of which stands at the given level. -/
def pretty (level : Nat) : Json → List Char
  | .null => ['n', 'u', 'l', 'l']
  | .bool true => ['t', 'r', 'u', 'e']
  | .bool false => ['f', 'a', 'l', 's', 'e']
  | .number n => n.text
  | .string s => Quoted.quote s.toList
  | .array [] => ['[', ']']
  | .array (x :: xs) =>
    '[' :: newline (level + 1) ++ pretty (level + 1) x ++ prettyElements (level + 1) xs ++
      newline level ++ [']']
  | .object [] => ['{', '}']
  | .object ((k, x) :: ms) =>
    '{' :: newline (level + 1) ++ Quoted.quote k.toList ++ [':', ' '] ++ pretty (level + 1) x ++
      prettyMembers (level + 1) ms ++ newline level ++ ['}']

/-- The elements behind the first one. -/
def prettyElements (level : Nat) : List Json → List Char
  | [] => []
  | x :: xs => ',' :: newline level ++ pretty level x ++ prettyElements level xs

/-- The members behind the first one. -/
def prettyMembers (level : Nat) : List (String × Json) → List Char
  | [] => []
  | (k, x) :: ms =>
    ',' :: newline level ++ Quoted.quote k.toList ++ [':', ' '] ++ pretty level x ++
      prettyMembers level ms

end

/-- A value over several lines, with a line end behind it. -/
def text (value : Json) : String := String.ofList (pretty 0 value ++ ['\n'])

/-! ## Reading -/

/-- How deep values may be nested. -/
def maxDepth : Nat := 127

/-- Append digits that stand before the point. Once the number does not fit, they only count. -/
def Numeral.appendWhole (fits : Nat → Bool) (m : Nat) : List Char → Nat × Int
  | [] => (m, 0)
  | c :: cs =>
    let next := 10 * m + (c.toNat - 48)
    if fits next then appendWhole fits next cs else (m, (c :: cs).length)

/-- Append digits that stand behind the point. Once the number does not fit, they are dropped. -/
def Numeral.appendFraction (fits : Nat → Bool) (m : Nat) (power : Int) : List Char → Nat × Int
  | [] => (m, power)
  | c :: cs =>
    let next := 10 * m + (c.toNat - 48)
    if fits next then appendFraction fits next (power - 1) cs else (m, power)

/-- The digits of a number as long as they fit into 64 bits, and the power of ten that they are to be
multiplied with. -/
def Numeral.scaled (n : Numeral) : Nat × Int :=
  let fits (m : Nat) : Bool := m < UInt64.size
  let (m, power) := appendWhole fits 0 n.whole
  let (m, power) := appendFraction fits m power (n.fraction.getD [])
  match n.exponent with
  | some (true, digits) => (m, power - ofDigits digits)
  | some (false, digits) => (m, power + ofDigits digits)
  | none => (m, power)

/-- The double next to a natural number, and of two equally near ones the even one. -/
def Numeral.nearestDouble (n : Nat) : Nat :=
  let unit := Nat.pow 2 (n.log2 - 52)
  Decimal.roundDiv n unit * unit

/-- The least number that is infinite as a double. It is half a unit above the greatest double. -/
def Numeral.overflow : Nat := Nat.pow 2 1024 - Nat.pow 2 970

/-- The number does not overflow as a double: its scaled digits, rounded to a double, are multiplied
with the double next to the power of ten. -/
def Numeral.isFinite (n : Numeral) : Bool :=
  match n.scaled with
  | (m, .ofNat power) =>
    m == 0 ||
      (power ≤ 308 && decide (nearestDouble m * nearestDouble (Nat.pow 10 power) < overflow))
  | (_, .negSucc _) => true

/-- Put a member into an object. The value of a key that is there already is replaced. -/
def insertMember (members : List (String × Json)) (key : String) (value : Json) :
    List (String × Json) :=
  if members.any (·.1 == key) then members.map fun m => if m.1 == key then (key, value) else m
  else members ++ [(key, value)]

/-- Read a value that is nested at most so deep. -/
def reader : (depth : Nat) → Reader Json
  | 0 => scalar
  | depth + 1 => .byNext fun
    | .leftBracket => (Reader.elements (reader depth)).map .array
    | .leftBrace =>
      (Reader.members
        (fun members key => .ok ((reader depth).map (insertMember members key))) []).map .object
    | _ => scalar
where
  /-- Read a value without parts. -/
  scalar : Reader Json :=
    .token fun
      | .null => .ok .null
      | .bool b => .ok (.bool b)
      | .number n => if n.isFinite then .ok (.number n) else .error .malformed
      | .string (some s) => .ok (.string s)
      | _ => .error .malformed

/-- Read a text that holds one value and nothing else. -/
def parse (text : String) : Except Fault Json := (reader maxDepth).readAll text.toList

end Json

end Lockstep
