import Lockstep.Json.Token

/-!
# Readers of JSON

A `Reader` takes a value of some type from the front of a text, token by token, and leaves the rest.
It stops at the first thing that is wrong, in the order of the text, so of two faults the earlier one
is reported. A reader always takes something, and carries the proof of it: this bounds the loops over
the elements of an array and the members of an object.

`skip` passes over a value of any shape. It keeps the open brackets in a list, so values may be nested
to any depth.
-/

namespace Lockstep.Json

/-- What can be wrong with a text that is read for a value. -/
inductive Fault where
  /-- The text is not JSON, or the value is not of the expected shape. -/
  | malformed
  /-- An object ends without a member that it has to have. -/
  | missingField (name : String)
  /-- An object has a member twice. -/
  | duplicateField (name : String)
  /-- A value has the right shape but is not admitted. -/
  | rejected (reason : String)
  deriving DecidableEq, Repr

/-- A reader of values from the front of a text. What it leaves is shorter than what it was given. -/
structure Reader (α : Type) where
  read : List Char → Except Fault (α × List Char)
  consumes : ∀ {cs : List Char} {a : α} {rest : List Char},
    read cs = .ok (a, rest) → rest.length < cs.length

namespace Reader

variable {α β σ : Type}

/-! ## One token -/

/-- Read one token, and make a value of it. -/
def token (value : Token → Except Fault α) : Reader α where
  read cs :=
    match Token.next? cs with
    | none => .error .malformed
    | some (t, rest) => (value t).map fun a => (a, rest)
  consumes := by
    intro cs a rest h
    split at h
    · simp at h
    · next t rest' ht =>
      cases hv : value t with
      | error e => simp [hv, Except.map] at h
      | ok b =>
        simp only [hv, Except.map, Except.ok.injEq, Prod.mk.injEq] at h
        exact h.2 ▸ Token.length_lt_of_next? ht

/-- Read exactly this token. -/
def exactly (expected : Token) : Reader Unit :=
  token fun t => if t = expected then .ok () else .error .malformed

/-- Read a number that is written as a natural number up to `max`. -/
def natUpTo (max : Nat) : Reader Nat :=
  token fun
    | .number numeral =>
      match numeral.toNat? with
      | some n => if n ≤ max then .ok n else .error .malformed
      | none => .error .malformed
    | _ => .error .malformed

/-! ## Putting readers together -/

/-- Read a value, and then another one that may depend on it. -/
def andThen (first : Reader α) (second : α → Reader β) : Reader β where
  read cs :=
    match first.read cs with
    | .error e => .error e
    | .ok (a, rest) => (second a).read rest
  consumes := by
    intro cs b rest h
    split at h
    · simp at h
    · next a mid ha => exact Nat.lt_trans ((second a).consumes h) (first.consumes ha)

/-- Read a value and make another one of it, which may fail. -/
def mapExcept (first : Reader α) (f : α → Except Fault β) : Reader β where
  read cs :=
    match first.read cs with
    | .error e => .error e
    | .ok (a, rest) => (f a).map fun b => (b, rest)
  consumes := by
    intro cs b rest h
    split at h
    · simp at h
    · next a mid ha =>
      cases hf : f a with
      | error e => simp [hf, Except.map] at h
      | ok b' =>
        simp only [hf, Except.map, Except.ok.injEq, Prod.mk.injEq] at h
        exact h.2 ▸ first.consumes ha

/-- Read a value and make another one of it. -/
def map (f : α → β) (first : Reader α) : Reader β := first.mapExcept fun a => .ok (f a)

/-- Choose a reader by the next token, which is left for it. -/
def byNext (choose : Token → Reader α) : Reader α where
  read cs :=
    match Token.next? cs with
    | none => .error .malformed
    | some (t, _) => (choose t).read cs
  consumes := by
    intro cs a rest h
    split at h
    · simp at h
    · exact (choose _).consumes h

/-- A reader that takes nothing, because something is wrong already. -/
def fail (fault : Fault) : Reader α where
  read _ := .error fault
  consumes := by simp

/-- Read `null`, or a value. -/
def orNull (value : Reader α) : Reader (Option α) :=
  byNext fun
    | .null => (exactly .null).map fun _ => none
    | _ => value.map some

/-! ## Arrays -/

/-- Read the elements behind a first one, and the closing bracket. -/
def elementsFrom (element : Reader α) (cs : List Char) : Except Fault (List α × List Char) :=
  match _h : element.read cs with
  | .error e => .error e
  | .ok (a, rest) =>
    match _ht : Token.next? rest with
    | some (.rightBracket, rest') => .ok ([a], rest')
    | some (.comma, rest') =>
      match elementsFrom element rest' with
      | .error e => .error e
      | .ok (as, rest'') => .ok (a :: as, rest'')
    | _ => .error .malformed
termination_by cs.length
decreasing_by exact Nat.lt_trans (Token.length_lt_of_next? _ht) (element.consumes _h)

theorem length_lt_of_elementsFrom {element : Reader α} {cs : List Char} {as : List α}
    {rest : List Char} (h : elementsFrom element cs = .ok (as, rest)) :
    rest.length < cs.length := by
  fun_induction elementsFrom element cs generalizing as rest with
  | case1 => simp at h
  | case2 cs a mid hr rest' ht =>
    simp only [Except.ok.injEq, Prod.mk.injEq] at h
    exact h.2 ▸ Nat.lt_trans (Token.length_lt_of_next? ht) (element.consumes hr)
  | case3 => simp_all
  | case4 cs a mid hr rest' ht as' rest'' he ih =>
    simp only [Except.ok.injEq, Prod.mk.injEq] at h
    have := ih he
    have := Token.length_lt_of_next? ht
    have := element.consumes hr
    rw [← h.2]
    omega
  | case5 => simp at h

def elements (element : Reader α) : Reader (List α) :=
  (exactly .leftBracket).andThen fun _ =>
    byNext fun
      | .rightBracket => (exactly .rightBracket).map fun _ => []
      | _ => { read := elementsFrom element, consumes := length_lt_of_elementsFrom }

/-- Read an array of exactly two elements. -/
def pair (first : Reader α) (second : Reader β) : Reader (α × β) :=
  (exactly .leftBracket).andThen fun _ => first.andThen fun a =>
    (exactly .comma).andThen fun _ => second.andThen fun b =>
      (exactly .rightBracket).map fun _ => (a, b)

/-! ## Objects -/

/-- Read the key of a member. -/
def key : Reader String :=
  token fun
    | .string (some text) => .ok text
    | _ => .error .malformed

/-- Read the members behind a first one, and the closing brace. What is known of the earlier members
says how the value of a key is read, and may refuse the key. -/
def membersFrom (member : σ → String → Except Fault (Reader σ)) (known : σ) (cs : List Char) :
    Except Fault (σ × List Char) :=
  match _h : (key.andThen fun name =>
      match member known name with
      | .error e => fail e
      | .ok value => (exactly .colon).andThen fun _ => value).read cs with
  | .error e => .error e
  | .ok (known, rest) =>
    match _ht : Token.next? rest with
    | some (.rightBrace, rest') => .ok (known, rest')
    | some (.comma, rest') => membersFrom member known rest'
    | _ => .error .malformed
termination_by cs.length
decreasing_by exact Nat.lt_trans (Token.length_lt_of_next? _ht) (Reader.consumes _ _h)

theorem length_lt_of_membersFrom {member : σ → String → Except Fault (Reader σ)} {known final : σ}
    {cs rest : List Char} (h : membersFrom member known cs = .ok (final, rest)) :
    rest.length < cs.length := by
  fun_induction membersFrom member known cs with
  | case1 => simp at h
  | case2 known cs known' mid hr rest' ht =>
    simp only [Except.ok.injEq, Prod.mk.injEq] at h
    exact h.2 ▸ Nat.lt_trans (Token.length_lt_of_next? ht) (Reader.consumes _ hr)
  | case3 known cs known' mid hr rest' ht ih =>
    exact Nat.lt_trans (ih h) (Nat.lt_trans (Token.length_lt_of_next? ht) (Reader.consumes _ hr))
  | case4 => simp at h

/-- Read an object. Before each value the key is looked at, with what is known so far. -/
def members (member : σ → String → Except Fault (Reader σ)) (known : σ) : Reader σ :=
  (exactly .leftBrace).andThen fun _ =>
    byNext fun
      | .rightBrace => (exactly .rightBrace).map fun _ => known
      | _ => { read := membersFrom member known, consumes := length_lt_of_membersFrom }

/-! ## Values of any shape -/

/-- A bracket or brace that is still open. -/
inductive Open where
  | array
  | object
  deriving DecidableEq, Repr

/-- What may come next while a value is passed over. -/
inductive Awaited where
  /-- A value. -/
  | value
  /-- A value, or the end of the array that has just begun. -/
  | element
  /-- A key. -/
  | key
  /-- A key, or the end of the object that has just begun. -/
  | member
  /-- The colon behind a key. -/
  | colon
  /-- A comma, or the end of what is open. -/
  | separator
  deriving DecidableEq, Repr

/-- How a token changes what is open and what may come next; `none` if it may not come here. -/
def passOver : List Open → Awaited → Token → Option (List Open × Awaited)
  | .array :: open_, .element, .rightBracket => some (open_, .separator)
  | .object :: open_, .member, .rightBrace => some (open_, .separator)
  | .array :: open_, .separator, .rightBracket => some (open_, .separator)
  | .object :: open_, .separator, .rightBrace => some (open_, .separator)
  | .array :: open_, .separator, .comma => some (.array :: open_, .value)
  | .object :: open_, .separator, .comma => some (.object :: open_, .key)
  | open_, .key, .string _ => some (open_, .colon)
  | open_, .member, .string _ => some (open_, .colon)
  | open_, .colon, .colon => some (open_, .value)
  | open_, awaited, token =>
    if awaited = .value ∨ awaited = .element then
      match token with
      | .leftBracket => some (.array :: open_, .element)
      | .leftBrace => some (.object :: open_, .member)
      | .null | .bool _ | .number _ | .string _ => some (open_, .separator)
      | _ => none
    else none

/-- Pass over tokens until nothing is open. -/
def skipFrom (open_ : List Open) (awaited : Awaited) (cs : List Char) :
    Except Fault (Unit × List Char) :=
  match _h : Token.next? cs with
  | none => .error .malformed
  | some (token, rest) =>
    match passOver open_ awaited token with
    | none => .error .malformed
    | some ([], .separator) => .ok ((), rest)
    | some (open_, awaited) => skipFrom open_ awaited rest
termination_by cs.length
decreasing_by exact Token.length_lt_of_next? _h

theorem length_lt_of_skipFrom {open_ : List Open} {awaited : Awaited} {cs rest : List Char}
    {u : Unit} (h : skipFrom open_ awaited cs = .ok (u, rest)) : rest.length < cs.length := by
  fun_induction skipFrom open_ awaited cs with
  | case1 => simp at h
  | case2 => simp at h
  | case3 open_ awaited cs token mid ht hp =>
    simp only [Except.ok.injEq, Prod.mk.injEq] at h
    exact h.2 ▸ Token.length_lt_of_next? ht
  | case4 open_ awaited cs token mid ht open' awaited' hne hp ih =>
    exact Nat.lt_trans (ih h) (Token.length_lt_of_next? ht)

/-- Pass over a value of any shape. -/
def skip : Reader Unit := { read := skipFrom [] .value, consumes := length_lt_of_skipFrom }

/-! ## Whole texts -/

/-- Read a text that holds one value and nothing else. -/
def readAll (value : Reader α) (cs : List Char) : Except Fault α :=
  match value.read cs with
  | .error e => .error e
  | .ok (a, rest) => if rest.all isSpace then .ok a else .error .malformed

end Reader

end Lockstep.Json
