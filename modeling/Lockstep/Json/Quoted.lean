import Lockstep.Text.Hex

/-!
# Quoted strings of JSON

`units?` reads the inside of a quoted string up to its closing quote. It yields code points; an
escape for one half of a surrogate pair yields that half, as text outside JSON never holds one.
`text?` joins the halves to characters, and fails where one of them stands alone. So a string can be
passed over without asking whether it is text.

`quote` writes a string. Written strings are read back (`units?_escape`).
-/

namespace Lockstep.Json.Quoted

/-! ## Reading -/

/-- The code point of a backslash escape of one letter. -/
def escape? (c : Char) : Option Nat :=
  if c = '"' then some 0x22
  else if c = '\\' then some 0x5C
  else if c = '/' then some 0x2F
  else if c = 'b' then some 0x08
  else if c = 'f' then some 0x0C
  else if c = 'n' then some 0x0A
  else if c = 'r' then some 0x0D
  else if c = 't' then some 0x09
  else none

/-- The code unit of four hexadecimal digits. -/
def unit? (digits : List Char) : Option Nat :=
  if digits.all Hex.isDigit then some (Hex.ofDigits digits) else none

/-- Put a code point before those of the rest of a string. -/
def before (n : Nat) (rest : Option (List Nat × List Char)) : Option (List Nat × List Char) :=
  rest.map fun (ns, cs) => (n :: ns, cs)

/-- The code points of a string whose opening quote has been read, and what follows its closing
quote. Control characters have to be escaped. -/
def units? : List Char → Option (List Nat × List Char)
  | [] => none
  | '"' :: cs => some ([], cs)
  | '\\' :: 'u' :: a :: b :: c :: d :: cs =>
    (unit? [a, b, c, d]).bind fun n => before n (units? cs)
  | '\\' :: e :: cs => (escape? e).bind fun n => before n (units? cs)
  | c :: cs => if c.toNat < 0x20 ∨ c = '\\' then none else before c.toNat (units? cs)

/-- The first half of a surrogate pair. -/
def isHigh (n : Nat) : Bool := 0xD800 ≤ n && n < 0xDC00

/-- The second half of a surrogate pair. -/
def isLow (n : Nat) : Bool := 0xDC00 ≤ n && n < 0xE000

/-- The characters of code points, with the halves of surrogate pairs joined. `none` if a half
stands alone. -/
def text? : List Nat → Option (List Char)
  | [] => some []
  | high :: low :: ns =>
    if isHigh high then
      if isLow low then
        (text? ns).map (Char.ofNat (0x10000 + 0x400 * (high - 0xD800) + (low - 0xDC00)) :: ·)
      else none
    else if isLow high then none
    else (text? (low :: ns)).map (Char.ofNat high :: ·)
  | [n] => if isHigh n || isLow n then none else some [Char.ofNat n]

/-! ## Writing -/

/-- A character as it is written inside quotes. -/
def escape (c : Char) : List Char :=
  if c = '"' then ['\\', '"']
  else if c = '\\' then ['\\', '\\']
  else if c = '\n' then ['\\', 'n']
  else if c = '\r' then ['\\', 'r']
  else if c = '\t' then ['\\', 't']
  else if c = '\x08' then ['\\', 'b']
  else if c = '\x0c' then ['\\', 'f']
  else if c.toNat < 0x20 then '\\' :: 'u' :: Hex.fixed 4 c.toNat
  else [c]

/-- A string between quotes. -/
def quote (cs : List Char) : List Char := '"' :: cs.flatMap escape ++ ['"']

/-! ## First facts -/

theorem length_lt_of_units? {cs : List Char} {ns : List Nat} {rest : List Char}
    (h : units? cs = some (ns, rest)) : rest.length < cs.length := by
  fun_induction units? cs generalizing ns rest <;>
    grind [before, Option.bind_eq_some_iff, Option.map_eq_some_iff]

/-- The number of a character is not that of half a surrogate pair. -/
theorem not_isHigh_toNat (c : Char) : isHigh c.toNat = false ∧ isLow c.toNat = false := by
  have h : c.toNat.isValidChar := c.valid
  simp only [isHigh, isLow, Bool.and_eq_false_iff, decide_eq_false_iff_not]
  rcases h with h | h <;> omega

/-- The characters of a text come back from their numbers. -/
theorem text?_map_toNat (cs : List Char) : text? (cs.map Char.toNat) = some cs := by
  induction cs with
  | nil => rfl
  | cons c cs ih =>
    obtain ⟨high, low⟩ := not_isHigh_toNat c
    cases cs with
    | nil => simp [text?, high, low]
    | cons d ds =>
      simp only [List.map_cons] at ih ⊢
      rw [text?, ih]
      simp [high, low]

theorem unit?_fixed {n : Nat} (h : n < 0x20) : unit? (Hex.fixed 4 n) = some n := by
  revert n
  decide

theorem units?_letter {e : Char} (h : e ≠ 'u') {n : Nat} (he : escape? e = some n)
    (cs : List Char) : units? ('\\' :: e :: cs) = before n (units? cs) := by
  rw [units?.eq_def]
  split
  · simp_all
  · simp_all
  · simp_all
  · next heq =>
    simp only [List.cons.injEq, true_and] at heq
    obtain ⟨rfl, rfl⟩ := heq
    rw [he, Option.bind_some]
  · next other heq =>
    obtain ⟨rfl, rfl⟩ := List.cons.inj heq
    exact absurd rfl (other e cs rfl)

theorem units?_plain {c : Char} (h : 0x20 ≤ c.toNat) (quote : c ≠ '"') (backslash : c ≠ '\\')
    (cs : List Char) : units? (c :: cs) = before c.toNat (units? cs) := by
  rw [units?.eq_def]
  split
  · simp_all
  · simp_all
  · simp_all
  · simp_all
  · next hc =>
    obtain ⟨rfl, rfl⟩ := List.cons.inj hc
    rw [if_neg (by simp only [backslash, or_false]; omega)]

theorem units?_escape_append (c : Char) (cs : List Char) :
    units? (escape c ++ cs) = before c.toNat (units? cs) := by
  unfold escape
  split
  · subst_vars; exact units?_letter (by decide) rfl cs
  split
  · subst_vars; exact units?_letter (by decide) rfl cs
  split
  · subst_vars; exact units?_letter (by decide) rfl cs
  split
  · subst_vars; exact units?_letter (by decide) rfl cs
  split
  · subst_vars; exact units?_letter (by decide) rfl cs
  split
  · subst_vars; exact units?_letter (by decide) rfl cs
  split
  · subst_vars; exact units?_letter (by decide) rfl cs
  split
  · next h =>
    have hu := unit?_fixed h
    simp only [Hex.fixed, List.nil_append, List.cons_append] at hu ⊢
    simp only [units?, hu, Option.bind_some]
  · exact units?_plain (by omega) (by assumption) (by assumption) cs

/-- A written string is read back, up to its closing quote. -/
theorem units?_escape (cs rest : List Char) :
    units? (cs.flatMap escape ++ '"' :: rest) = some (cs.map Char.toNat, rest) := by
  induction cs with
  | nil => simp [units?]
  | cons c cs ih => simp [units?_escape_append, ih, before]

end Lockstep.Json.Quoted
