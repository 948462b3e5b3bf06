import Lockstep.Json.Quoted

/-!
# Tokens of JSON

`Token.next?` reads the next token of a text. White space before it is passed over; anything that is
no token, and the end of the text, gives `none`. A token is never empty, so what follows it is shorter
than the text (`Token.length_lt_of_next?`), which bounds every reader.
-/

namespace Lockstep.Json

/-- A number as it is written. -/
structure Numeral where
  negative : Bool := false
  /-- The digits before the point. -/
  whole : List Char
  /-- The digits behind the point, if there is one. -/
  fraction : Option (List Char) := none
  /-- Whether the exponent is negative, and its digits. -/
  exponent : Option (Bool × List Char) := none
  deriving DecidableEq, Repr

/-- A token. -/
inductive Token where
  | leftBracket
  | rightBracket
  | leftBrace
  | rightBrace
  | comma
  | colon
  | null
  | bool (value : Bool)
  | number (numeral : Numeral)
  /-- A string, or `none` for one that is not text because half of a surrogate pair stands alone. -/
  | string (text : Option String)
  deriving DecidableEq, Repr

/-- The white space of JSON: blank, tab, line feed and carriage return. -/
def isSpace (c : Char) : Bool := c == ' ' || c == '\t' || c == '\n' || c == '\r'

namespace Numeral

/-- The value of decimal digits. -/
def ofDigits (digits : List Char) : Nat :=
  digits.foldl (fun n c => 10 * n + (c.toNat - 48)) 0

/-- The value of a number written as a natural number: without sign, point and exponent. -/
def toNat? (numeral : Numeral) : Option Nat :=
  if numeral.negative || numeral.fraction.isSome || numeral.exponent.isSome then none
  else some (ofDigits numeral.whole)

/-- Read an exponent, if there is one. `none` for one without digits. -/
def exponent? (cs : List Char) : Option (Option (Bool × List Char) × List Char) :=
  match cs with
  | c :: rest =>
    if c = 'e' ∨ c = 'E' then
      let (negative, rest) := match rest with
        | '-' :: rest => (true, rest)
        | '+' :: rest => (false, rest)
        | rest => (false, rest)
      let digits := rest.takeWhile Char.isDigit
      if digits.isEmpty then none
      else some (some (negative, digits), rest.dropWhile Char.isDigit)
    else some (none, cs)
  | [] => some (none, cs)

/-- Read the part behind the point, if there is a point. `none` for a point without digits. -/
def fraction? (cs : List Char) : Option (Option (List Char) × List Char) :=
  match cs with
  | '.' :: rest =>
    let digits := rest.takeWhile Char.isDigit
    if digits.isEmpty then none else some (some digits, rest.dropWhile Char.isDigit)
  | _ => some (none, cs)

/-- Read a number without its sign. A zero in front of further digits is not allowed. -/
def unsigned? (negative : Bool) (cs : List Char) : Option (Numeral × List Char) := do
  let whole := cs.takeWhile Char.isDigit
  if whole.isEmpty || (whole.head? == some '0' && whole.length != 1) then none
  else
    let (fraction, rest) ← fraction? (cs.dropWhile Char.isDigit)
    let (exponent, rest) ← exponent? rest
    return ({ negative, whole, fraction, exponent }, rest)

end Numeral

namespace Token

/-- Read a key word whose first letter has been read. -/
def keyword? (token : Token) (letters cs : List Char) : Option (Token × List Char) :=
  if letters.isPrefixOf cs then some (token, cs.drop letters.length) else none

/-- A token of a single character. -/
def punctuation? (c : Char) : Option Token :=
  if c = '[' then some .leftBracket
  else if c = ']' then some .rightBracket
  else if c = '{' then some .leftBrace
  else if c = '}' then some .rightBrace
  else if c = ',' then some .comma
  else if c = ':' then some .colon
  else none

/-- Read a string whose opening quote has been read. -/
def string? (cs : List Char) : Option (Token × List Char) :=
  (Quoted.units? cs).map fun (ns, rest) => (.string ((Quoted.text? ns).map String.ofList), rest)

/-- Read a number without its sign. -/
def number? (negative : Bool) (cs : List Char) : Option (Token × List Char) :=
  (Numeral.unsigned? negative cs).map fun (n, rest) => (.number n, rest)

/-- Read the token that begins with the character `c`. -/
def starting? (c : Char) (cs : List Char) : Option (Token × List Char) :=
  match punctuation? c with
  | some token => some (token, cs)
  | none =>
    if c = '"' then string? cs
    else if c = '-' then number? true cs
    else if c = 'n' then keyword? .null ['u', 'l', 'l'] cs
    else if c = 't' then keyword? (.bool true) ['r', 'u', 'e'] cs
    else if c = 'f' then keyword? (.bool false) ['a', 'l', 's', 'e'] cs
    else number? false (c :: cs)

/-- The next token of a text, and what follows it. -/
def next? (cs : List Char) : Option (Token × List Char) :=
  match cs.dropWhile isSpace with
  | [] => none
  | c :: rest => starting? c rest

/-! ## What follows a token is shorter -/

theorem length_le_of_fraction? {cs rest : List Char} {f : Option (List Char)}
    (h : Numeral.fraction? cs = some (f, rest)) : rest.length ≤ cs.length := by
  unfold Numeral.fraction? at h
  split at h
  · next tail =>
    have := (List.dropWhile_suffix Char.isDigit (l := tail)).length_le
    grind
  · grind

theorem length_le_of_exponent? {cs rest : List Char} {e : Option (Bool × List Char)}
    (h : Numeral.exponent? cs = some (e, rest)) : rest.length ≤ cs.length := by
  have drop (l : List Char) : (l.dropWhile Char.isDigit).length ≤ l.length :=
    (List.dropWhile_suffix Char.isDigit).length_le
  unfold Numeral.exponent? at h
  split at h
  · split at h
    · split at h
      next hs =>
      split at hs <;> grind
    · grind
  · grind

theorem length_lt_of_unsigned? {negative : Bool} {cs rest : List Char} {n : Numeral}
    (h : Numeral.unsigned? negative cs = some (n, rest)) : rest.length < cs.length := by
  unfold Numeral.unsigned? at h
  simp only [Option.bind_eq_bind, Option.pure_def] at h
  split at h
  · simp at h
  · next hw =>
    obtain ⟨⟨f, mid⟩, hf, h⟩ := Option.bind_eq_some_iff.1 h
    obtain ⟨⟨e, rest'⟩, he, h⟩ := Option.bind_eq_some_iff.1 h
    simp only [Option.some.injEq, Prod.mk.injEq] at h
    obtain ⟨-, rfl⟩ := h
    have hf := length_le_of_fraction? hf
    have he : rest'.length ≤ mid.length := length_le_of_exponent? he
    have hf : mid.length ≤ (cs.dropWhile Char.isDigit).length := hf
    have split : cs.takeWhile Char.isDigit ++ cs.dropWhile Char.isDigit = cs :=
      List.takeWhile_append_dropWhile
    have total := congrArg List.length split
    rw [List.length_append] at total
    have : (cs.takeWhile Char.isDigit).length ≠ 0 := by
      intro h0
      simp [List.length_eq_zero_iff.1 h0] at hw
    omega

theorem length_le_of_keyword? {token t : Token} {letters cs rest : List Char}
    (h : keyword? token letters cs = some (t, rest)) : rest.length ≤ cs.length := by
  unfold keyword? at h
  split at h
  · simp only [Option.some.injEq, Prod.mk.injEq] at h
    rw [← h.2, List.length_drop]
    omega
  · simp at h

theorem length_lt_of_string? {cs rest : List Char} {t : Token}
    (h : string? cs = some (t, rest)) : rest.length < cs.length := by
  obtain ⟨⟨ns, r⟩, hu, h⟩ := Option.map_eq_some_iff.1 h
  simp only [Prod.mk.injEq] at h
  exact h.2 ▸ Quoted.length_lt_of_units? hu

theorem length_lt_of_number? {negative : Bool} {cs rest : List Char} {t : Token}
    (h : number? negative cs = some (t, rest)) : rest.length < cs.length := by
  obtain ⟨⟨n, r⟩, hn, h⟩ := Option.map_eq_some_iff.1 h
  simp only [Prod.mk.injEq] at h
  exact h.2 ▸ length_lt_of_unsigned? hn

theorem length_le_of_starting? {c : Char} {cs rest : List Char} {t : Token}
    (h : starting? c cs = some (t, rest)) : rest.length ≤ cs.length := by
  unfold starting? at h
  split at h
  · simp only [Option.some.injEq, Prod.mk.injEq] at h
    exact Nat.le_of_eq (congrArg List.length h.2.symm)
  · split at h
    · exact Nat.le_of_lt (length_lt_of_string? h)
    split at h
    · exact Nat.le_of_lt (length_lt_of_number? h)
    split at h
    · exact length_le_of_keyword? h
    split at h
    · exact length_le_of_keyword? h
    split at h
    · exact length_le_of_keyword? h
    · exact Nat.le_of_lt_succ (length_lt_of_number? h)

theorem length_lt_of_next? {cs rest : List Char} {t : Token} (h : next? cs = some (t, rest)) :
    rest.length < cs.length := by
  unfold next? at h
  have drop : (cs.dropWhile isSpace).length ≤ cs.length :=
    (List.dropWhile_suffix isSpace).length_le
  split at h
  · simp at h
  · next c tail hd =>
    rw [hd, List.length_cons] at drop
    have := length_le_of_starting? h
    omega

end Token

end Lockstep.Json
