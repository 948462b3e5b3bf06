import Lockstep.CommandLine.Switch

/-!
# Arguments

The arguments of a program are a list of texts. `readArguments` makes out of them which switches were
given, with their values, and which words stand beside them. It goes from left to right and stops at the
first argument that cannot be used, at a switch that asks for a text about the program, and at the name
of a command.

The spellings of a switch with a value are `--output value`, `--output=value`, `-o value`, `-ovalue` and
`-o=value`. Letters of switches without values may stand behind one dash. Behind two dashes alone all
arguments are words.
-/

namespace Lockstep.CommandLine

/-- What is wrong with arguments. -/
inductive Misuse where
  | unknownSwitch (spelling : String)
  | unexpectedWord (word : String)
  | missingValue (switch : Switch)
  | unexpectedValue (switch : Switch)
  | invalidValue (switch : Switch) (text : String)
  | emptyWord
  | repeated (switch : Switch)
  | conflict (first second : Switch)
  | missingSwitch (switch : Switch)
  | missingWord
  | missingCommand
  deriving DecidableEq, Repr

/-- Why no command is carried out. -/
inductive Ending where
  /-- Help is asked for. -/
  | help
  /-- The version of the program is asked for. -/
  | version
  | misuse (cause : Misuse)
  deriving DecidableEq, Repr

/-- What may be given: switches, a number of words, and the name of a command. -/
structure Grammar where
  switches : List Switch
  words : Nat := 0
  commands : List String := []

/-- What was given: switches with their values, and words. A switch without a value has the empty one.
-/
structure Given where
  switches : List (Switch × String) := []
  words : List String := []
  deriving DecidableEq, Repr

namespace Given

def has (given : Given) (switch : Switch) : Bool := given.switches.any (·.1 == switch)

/-- The values of a switch, in order. -/
def values (given : Given) (switch : Switch) : List String :=
  (given.switches.filter (·.1 == switch)).map Prod.snd

def value? (given : Given) (switch : Switch) : Option String := (given.values switch).head?

/-- The number that was given with a switch. -/
def number? (given : Given) (switch : Switch) : Option Nat := (given.value? switch).bind natural?

/-- The value of a switch that has to be given. -/
def required (given : Given) (switch : Switch) : Except Ending String :=
  match given.value? switch with
  | some value => .ok value
  | none => .error (.misuse (.missingSwitch switch))

/-- One switch more, with its value. -/
def addSwitch (given : Given) (switch : Switch) (value : String) : Except Ending Given :=
  if switch = .help then .error .help
  else if switch = .version then .error .version
  else if given.has switch && !switch.repeats then .error (.misuse (.repeated switch))
  else if !switch.operand.admits value then .error (.misuse (.invalidValue switch value))
  else .ok { given with switches := given.switches ++ [(switch, value)] }

/-- One word more, if there may be one. Words are paths. -/
def addWord (given : Given) (grammar : Grammar) (word : String) : Except Ending Given :=
  if given.words.length < grammar.words then
    if Operand.path.admits word then .ok { given with words := given.words ++ [word] }
    else .error (.misuse .emptyWord)
  else .error (.misuse (.unexpectedWord word))

end Given

/-! ## Single arguments -/

/-- An argument, by its form. -/
inductive Argument where
  /-- Two dashes alone. -/
  | separator
  /-- The text behind two dashes. -/
  | long (text : List Char)
  /-- The text behind one dash. -/
  | letters (text : List Char)
  | word (text : String)
  deriving DecidableEq, Repr

/-- The form of an argument. A dash alone is a word. -/
def Argument.of (argument : String) : Argument :=
  match argument.toList with
  | ['-', '-'] => .separator
  | '-' :: '-' :: text => .long text
  | '-' :: c :: rest => .letters (c :: rest)
  | _ => .word argument

/-- What was given after an argument, and the switch that waits for its value. -/
abbrev Progressed := Given × Option Switch

/-- Read the text behind two dashes. -/
def readLong (grammar : Grammar) (text : List Char) (given : Given) : Except Ending Progressed :=
  let name := String.ofList (text.takeWhile (· != '='))
  match grammar.switches.find? (·.long == name) with
  | none => .error (.misuse (.unknownSwitch ("--" ++ name)))
  | some switch =>
    match text.dropWhile (· != '=') with
    | [] =>
      if switch.takesValue then .ok (given, some switch)
      else (·, none) <$> given.addSwitch switch ""
    | _ :: value =>
      if switch.takesValue then (·, none) <$> given.addSwitch switch (String.ofList value)
      else .error (.misuse (.unexpectedValue switch))

/-- Read the letters behind one dash. What stands behind the letter of a switch with a value is that
value. -/
def readLetters (grammar : Grammar) : List Char → Given → Except Ending Progressed
  | [], given => .ok (given, none)
  | c :: rest, given =>
    match grammar.switches.find? (·.letter? == some c) with
    | none => .error (.misuse (.unknownSwitch (String.ofList ['-', c])))
    | some switch =>
      if switch.takesValue then
        match rest with
        | [] => .ok (given, some switch)
        | '=' :: value => (·, none) <$> given.addSwitch switch (String.ofList value)
        | value => (·, none) <$> given.addSwitch switch (String.ofList value)
      else do readLetters grammar rest (← given.addSwitch switch "")

/-! ## All arguments -/

/-- The name of a command, and the arguments behind it. -/
abbrev Continued := Option (String × List String)

/-- Read arguments, while a switch waits for its value or not. -/
def readArguments (grammar : Grammar) :
    (waiting : Option Switch) → (arguments : List String) → Given → Except Ending (Given × Continued)
  | none, [], given => .ok (given, none)
  | some switch, [], _ => .error (.misuse (.missingValue switch))
  | some switch, argument :: rest, given =>
    match Argument.of argument with
    | .word value => do readArguments grammar none rest (← given.addSwitch switch value)
    | _ => .error (.misuse (.missingValue switch))
  | none, argument :: rest, given =>
    match Argument.of argument with
    | .separator => do return (← rest.foldlM (·.addWord grammar ·) given, none)
    | .long text => do
      let (given, waiting) ← readLong grammar text given
      readArguments grammar waiting rest given
    | .letters text => do
      let (given, waiting) ← readLetters grammar text given
      readArguments grammar waiting rest given
    | .word word =>
      if grammar.commands.contains word then .ok (given, some (word, rest))
      else do readArguments grammar none rest (← given.addWord grammar word)

end Lockstep.CommandLine
