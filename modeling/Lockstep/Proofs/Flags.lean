import Lockstep.CommandLine.Command
import Lockstep.Proofs.Layers

/-!
# Flags as the last layer

The flags about a verification count for as much as one more settings file that holds their members
(`settings_eq_bind_load`), but they are not a layer like the others: the files have to describe valid settings
by themselves, before the flags are looked at. So a window of no commits in a file is fatal also where the flags
give another one, while a later file would repair it (`flags_repair_nothing`).
-/

namespace Lockstep.CommandLine.VerifyFlags

open Lockstep.Settings

variable {files : FileTree} {paths : List String} {last : String} {base : Settings}
  {flags : VerifyFlags} {found : String → Option Json}

/-- The number of a command line is never too large for a window. -/
theorem window_ofGiven {given : Given} {window : Nat}
    (h : (ofGiven given).reorderWindow = some window) : window ≤ maxWindow := by
  obtain ⟨text, -, htext⟩ := Option.bind_eq_some_iff.1 h
  simp only [natural?, Option.ite_none_left_eq_some] at htext
  exact of_decide_eq_true (Option.filter_eq_some_iff.1 htext.2).2

/-! ## What a settings file would hold -/

/-- The members of a settings file that says the same. -/
def members (flags : VerifyFlags) : Json.Members :=
  (if flags.wordBoundaryStores then [("word_boundary_stores", .bool true)] else []) ++
    (match flags.reorderWindow with
      | some window => [("reorder_window", .nat window)]
      | none => [])

theorem find?_wordBoundaryStores (flags : VerifyFlags) :
    flags.members.find? "word_boundary_stores" =
      if flags.wordBoundaryStores then some (.bool true) else none := by
  obtain ⟨stores, window, strict⟩ := flags
  cases stores <;> cases window <;> rfl

theorem find?_reorderWindow (flags : VerifyFlags) :
    flags.members.find? "reorder_window" = flags.reorderWindow.map .nat := by
  obtain ⟨stores, window, strict⟩ := flags
  cases stores <;> cases window <;> rfl

theorem find?_shadowResetValue (flags : VerifyFlags) :
    flags.members.find? "shadow_reset_value" = none := by
  obtain ⟨stores, window, strict⟩ := flags
  cases stores <;> cases window <;> rfl

theorem find?_golden (flags : VerifyFlags) : flags.members.find? "golden" = none := by
  obtain ⟨stores, window, strict⟩ := flags
  cases stores <;> cases window <;> rfl

/-- With the members of the flags put over them, values that describe settings describe those that the flags
make of the settings. -/
theorem describes_applyTo (h : Describes found base)
    (hwindow : ∀ window, flags.reorderWindow = some window → window ≤ maxWindow) :
    Describes (fun key => (flags.members.find? key).or (found key)) (flags.applyTo base) where
  wordBoundaryStores := by
    rw [find?_wordBoundaryStores]
    cases hstores : flags.wordBoundaryStores with
    | false => simpa [applyTo, hstores] using h.wordBoundaryStores
    | true => simpa [applyTo, hstores] using .given rfl
  reorderWindow := by
    rw [find?_reorderWindow]
    cases hgiven : flags.reorderWindow with
    | none => simpa [applyTo, hgiven] using h.reorderWindow
    | some window => simpa [applyTo, hgiven] using .given (natUpTo?_nat (hwindow window hgiven))
  shadowResetValue := by
    rw [find?_shadowResetValue]
    exact h.shadowResetValue
  golden := by
    rw [find?_golden]
    exact h.golden

/-! ## Files and flags -/

/-- **The flags are one more layer over files that can be used by themselves.** Where the files alone give no
settings, their error stands. Otherwise the flags and a last file that says the same come to the same: to the
same settings, or to the same error. -/
theorem settings_eq_bind_load (files : FileTree) (paths : List String) (flags : VerifyFlags)
    (hwindow : ∀ window, flags.reorderWindow = some window → window ≤ maxWindow)
    {members : Json.Members} (hlast : IsLayer files last members)
    (hsame : ∀ key, members.find? key = flags.members.find? key) :
    (flags.settings paths files).2 =
      (Settings.load files paths).2.bind fun _ => (Settings.load files (paths ++ [last])).2 := by
  have hsettings : (flags.settings paths files).2 = (Settings.load files paths).2.bind fun base =>
      (flags.applyTo base).validate.mapError .invalidSettings := rfl
  rw [hsettings]
  cases hload : (Settings.load files paths).2 with
  | error e => rfl
  | ok base =>
    obtain ⟨objects, hholds, hdescribes, -⟩ := holds_of_load hload
    have hmore := hholds.append hlast
    have hfound : lastValue (objects ++ [members]) =
        fun key => (flags.members.find? key).or (lastValue objects key) := by
      funext key
      rw [lastValue_append, lastValue_singleton, hsame]
    have hover := describes_applyTo hdescribes hwindow
    rw [← hfound] at hover
    exact (load_of_describes hmore hover).symm

/-- Both flags. -/
def bothFlags : VerifyFlags := { wordBoundaryStores := true, reorderWindow := some 2 }

/-- A file with a window of no commits, and one that says the same as both flags. -/
def shortWindow : FileTree :=
  (FileTree.empty.insert ["short.json"]
    (.file (Json.object [("reorder_window", .nat 0)]).text.toUTF8)).insert ["flags.json"]
      (.file (Json.object bothFlags.members).text.toUTF8)

theorem isLayer_bothFlags : IsLayer shortWindow "flags.json" bothFlags.members := by
  refine isLayer_of_written (by decide +kernel) (by decide) ?_
  exact List.forall_mem_cons.2 ⟨Json.reader_takes_bool true,
    List.forall_mem_singleton.2 (Json.reader_takes_nat (by decide))⟩

theorem settings_eq_bind_load_of_bothFlags :
    (bothFlags.settings [] shortWindow).2 = (Settings.load shortWindow ["flags.json"]).2 ∧
    (Settings.load shortWindow ["flags.json"]).2 =
      .ok { wordBoundaryStores := true, reorderWindow := 2 } := by
  have hgiven : bothFlags =
      ofGiven { switches := [(.wordBoundaryStores, ""), (.reorderWindow, "2")] } := by
    decide +kernel
  have hwindow : ∀ window, bothFlags.reorderWindow = some window → window ≤ maxWindow := by
    rw [hgiven]
    exact fun window => window_ofGiven
  exact ⟨settings_eq_bind_load shortWindow [] bothFlags hwindow isLayer_bothFlags fun _ => rfl,
    by decide +kernel⟩

/-- A last file repairs the window of no commits, and the flags that say the same do not. -/
theorem flags_repair_nothing :
    IsLayer shortWindow "flags.json" bothFlags.members ∧
    (Settings.load shortWindow ["short.json", "flags.json"]).2 =
      .ok { wordBoundaryStores := true, reorderWindow := 2 } ∧
    (bothFlags.settings ["short.json"] shortWindow).2 = .error (.invalidSettings .emptyWindow) :=
  ⟨isLayer_bothFlags, by decide +kernel, by decide +kernel⟩

end Lockstep.CommandLine.VerifyFlags
