import Lockstep.Session
import Lockstep.Settings
import Lockstep.TraceFile.Entries

/-!
# Settings files

Settings come from several JSON files, each of which holds an object. A later file replaces the members
of an earlier one by key, at the top level only. Files that do not exist are passed over. The object
that results is made into settings after the last file, so a bad value does no harm if a later file
replaces it. Members that are absent take their defaults, and unknown ones are ignored.
-/

namespace Lockstep

/-- The members of an object. -/
abbrev Json.Members := List (String × Json)

namespace Json

/-- The value of a member. -/
def Members.find? (members : Members) (key : String) : Option Json :=
  (List.find? (·.1 == key) members).map Prod.snd

/-- The members of two objects. Where both have a key, the value of the second one counts. -/
def merge (first second : Members) : Members :=
  second.foldl (fun members (key, value) => insertMember members key value) first

/-- A truth value. -/
def bool? : Json → Option Bool
  | .bool b => some b
  | _ => none

/-- A natural number up to `max`. -/
def natUpTo? (max : Nat) : Json → Option Nat
  | .number numeral => numeral.toNat?.filter (· ≤ max)
  | _ => none

/-- A 32-bit word. -/
def word? (value : Json) : Option UInt32 := (natUpTo? (UInt32.size - 1) value).map UInt32.ofNat

/-- The value of a member, or its default if there is none. `none` for a value of another form. -/
def memberOr {α : Type} (members : Members) (key : String) (read : Json → Option α) (default : α) :
    Option α :=
  match members.find? key with
  | some value => read value
  | none => some default

end Json

namespace LogFilter

/-- A range of program counters, or `null` for none. -/
def range? : Json → Option (Option (UInt32 × UInt32))
  | .null => some none
  | .array [first, last] => do return some (← first.word?, ← last.word?)
  | _ => none

/-- A filter, as an object or as an array of its fields in order, where the last ones may be left
out. -/
def ofJson? : Json → Option LogFilter
  | .object members => do
    let debugRom ← Json.memberOr members "debug_rom" range? ({} : LogFilter).debugRom
    let stopAtTestCleanup ← Json.memberOr members "stop_at_test_cleanup" Json.bool?
      ({} : LogFilter).stopAtTestCleanup
    return { debugRom, stopAtTestCleanup }
  | .array [] => some {}
  | .array [rom] => do return { debugRom := ← range? rom }
  | .array [rom, stop] => do return { debugRom := ← range? rom, stopAtTestCleanup := ← stop.bool? }
  | _ => none

end LogFilter

namespace Settings

/-- The largest window that can be asked for. -/
def maxWindow : Nat := UInt64.size - 1

/-- The settings that the members of an object describe. -/
def ofMembers? (members : Json.Members) : Option Settings := do
  let wordBoundaryStores ← Json.memberOr members "word_boundary_stores" Json.bool?
    ({} : Settings).wordBoundaryStores
  let reorderWindow ← Json.memberOr members "reorder_window" (Json.natUpTo? maxWindow)
    ({} : Settings).reorderWindow
  let shadowResetValue ← Json.memberOr members "shadow_reset_value" Json.word?
    ({} : Settings).shadowResetValue
  let golden ← Json.memberOr members "golden" LogFilter.ofJson? ({} : Settings).golden
  return { wordBoundaryStores, reorderWindow, shadowResetValue, golden }

/-- The settings, if they make sense: at least one commit is searched, and no range is reversed. -/
def validate (settings : Settings) : Except SettingsFault Settings :=
  if settings.reorderWindow = 0 then .error .emptyWindow
  else
    match settings.golden.debugRom with
    | some (first, last) =>
      if last < first then .error (.reversedRange first last) else .ok settings
    | none => .ok settings

/-- The members in a settings file. -/
def readMembers (path : String) (files : FileTree) : Except Error Json.Members := do
  let text ← (files.readText path).mapError (.file path)
  match Json.parse text with
  | .error _ => .error (.invalidSettings .malformed)
  | .ok (.object members) => .ok members
  | .ok _ => .error (.invalidSettings (.notAnObject path))

/-- Put the members of settings files over those that are known, one file after the other, and tell of
each file. Reading stops at the first file that cannot be used. -/
def layers (files : FileTree) :
    (known : Json.Members) → (paths : List String) → List Event × Except Error Json.Members
  | known, [] => ([], .ok known)
  | known, path :: rest =>
    if files.pathExists path then
      let told : Event := { level := .debug, message := s!"loading configuration from {path}" }
      match readMembers path files with
      | .error e => ([told], .error e)
      | .ok members =>
        let (events, result) := layers files (Json.merge known members) rest
        (told :: events, result)
    else
      let told : Event := { level := .warn, message := s!"configuration file {path} not found" }
      let (events, result) := layers files known rest
      (told :: events, result)

/-- Make settings of members, and see that they make sense. -/
def ofMembers (members : Json.Members) : Except Error Settings :=
  match ofMembers? members with
  | none => .error (.invalidSettings .malformed)
  | some settings => settings.validate.mapError .invalidSettings

/-- The settings from files, and what is told of the files. -/
def load (files : FileTree) (paths : List String) : List Event × Except Error Settings :=
  let (events, result) := layers files [] paths
  (events, result.bind ofMembers)

end Settings

end Lockstep
