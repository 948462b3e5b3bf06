import Lockstep.Proofs.Files
import Lockstep.Proofs.Members
import Mathlib.Data.List.Forall2

/-!
# Layers of settings

Settings files are put over each other key by key, so what counts of a key is its value in the last file that
has it (`lastValue`). `load_layers` says what that comes to: files that do not exist do not matter, the first
file that cannot be used decides the error, and if all files can be used, then the settings are the valid ones
that the last values describe. A bad value does no harm if a later file has its key, and is fatal if none has.

The proof follows one file at a time (`layers_of_readMembers`) through the list, and settings are made of
nothing but what is found under their keys (`ofMembers_congr`), which `find?_foldl_merge` gives for the files.
-/

namespace Lockstep.Settings

variable {files : FileTree} {path : String} {paths : List String} {members : Json.Members}
  {objects : List Json.Members} {settings : Settings} {e : Error} {α : Type}

/-! ## Single files -/

/-- A file holds an object with these members. -/
def IsLayer (files : FileTree) (path : String) (members : Json.Members) : Prop :=
  ∃ text, files.readText path = .ok text ∧ Json.parse text = .ok (.object members)

/-- Why a file is no layer, as an error. -/
inductive Unusable (files : FileTree) (path : String) : Error → Prop
  | unreadable {fault : FileFault} (h : files.readText path = .error fault) :
      Unusable files path (.file path fault)
  | notJson {text : String} {fault : Json.Fault} (hread : files.readText path = .ok text)
      (hparse : Json.parse text = .error fault) :
      Unusable files path (.invalidSettings .malformed)
  | notAnObject {text : String} {value : Json} (hread : files.readText path = .ok text)
      (hparse : Json.parse text = .ok value) (h : ∀ members, value ≠ .object members) :
      Unusable files path (.invalidSettings (.notAnObject path))

theorem readMembers_of_isLayer (h : IsLayer files path members) :
    readMembers path files = .ok members := by
  obtain ⟨text, hread, hparse⟩ := h
  simp only [readMembers, hread, Except.mapError, hparse, bind, Except.bind]

theorem readMembers_of_unusable (h : Unusable files path e) : readMembers path files = .error e := by
  cases h with
  | unreadable h => simp only [readMembers, h, Except.mapError, bind, Except.bind]
  | notJson hread hparse =>
    simp only [readMembers, hread, Except.mapError, hparse, bind, Except.bind]
  | notAnObject hread hparse h =>
    simp only [readMembers, hread, Except.mapError, hparse, bind, Except.bind]

/-- A file is a layer, or there is a cause why it is none. -/
theorem isLayer_or_unusable (files : FileTree) (path : String) :
    (∃ members, IsLayer files path members) ∨ ∃ e, Unusable files path e := by
  cases hread : files.readText path with
  | error fault => exact .inr ⟨_, .unreadable hread⟩
  | ok text =>
    cases hparse : Json.parse text with
    | error fault => exact .inr ⟨_, .notJson hread hparse⟩
    | ok value =>
      cases value with
      | object members => exact .inl ⟨members, text, hread, hparse⟩
      | _ => exact .inr ⟨_, .notAnObject hread hparse nofun⟩

/-- An object with each key once, as it is written. -/
theorem isLayer_of_written (hread : files.read path = .ok (Json.object members).text.toUTF8)
    (hdistinct : members.Distinct)
    (h : ∀ m ∈ members, (Json.reader 126).Takes m.2 (.ok m.2)) : IsLayer files path members :=
  ⟨_, FileTree.readText_of_read hread, Json.parse_object hdistinct h⟩

theorem IsLayer.distinct (h : IsLayer files path members) : members.Distinct := by
  obtain ⟨text, -, hparse⟩ := h
  exact Json.distinct_of_parse hparse

/-! ## One file after the other -/

theorem layers_of_missing (h : files.pathExists path = false) (known : Json.Members) :
    (layers files known (path :: paths)).2 = (layers files known paths).2 := by
  rw [layers, if_neg (by rw [h]; exact Bool.false_ne_true)]

theorem layers_of_pathExists (h : files.pathExists path = true) (known : Json.Members) :
    (layers files known (path :: paths)).2 = (readMembers path files).bind fun members =>
      (layers files (Json.merge known members) paths).2 := by
  rw [layers, if_pos h]
  cases readMembers path files with
  | ok members => rfl
  | error e => rfl

/-- Files that do not exist do not matter. -/
theorem layers_filter (known : Json.Members) (paths : List String) :
    (layers files known (paths.filter files.pathExists)).2 = (layers files known paths).2 := by
  induction paths generalizing known with
  | nil => rfl
  | cons path paths ih =>
    cases hpath : files.pathExists path with
    | false =>
      rw [List.filter_cons_of_neg (by simp [hpath]), layers_of_missing hpath, ih]
    | true =>
      rw [List.filter_cons_of_pos hpath, layers_of_pathExists hpath, layers_of_pathExists hpath]
      simp only [ih]

/-- The files that exist hold these objects. -/
def Holds (files : FileTree) (paths : List String) (objects : List Json.Members) : Prop :=
  List.Forall₂ (IsLayer files) (paths.filter files.pathExists) objects

/-- A file that exists cannot be used, and all files before it can. -/
def Stops (files : FileTree) (paths : List String) (e : Error) : Prop :=
  ∃ before path after objects, paths = before ++ path :: after ∧ Holds files before objects ∧
    files.pathExists path = true ∧ Unusable files path e

theorem Holds.cons_missing (h : Holds files paths objects) (hpath : files.pathExists path = false) :
    Holds files (path :: paths) objects := by
  unfold Holds
  rwa [List.filter_cons_of_neg (by simp [hpath])]

theorem Holds.cons (h : Holds files paths objects) (hpath : files.pathExists path = true)
    (hlayer : IsLayer files path members) : Holds files (path :: paths) (members :: objects) := by
  unfold Holds
  rw [List.filter_cons_of_pos hpath]
  exact .cons hlayer h

theorem IsLayer.pathExists (h : IsLayer files path members) : files.pathExists path = true := by
  obtain ⟨text, hread, -⟩ := h
  obtain ⟨bytes, hbytes, -⟩ := bind_eq_ok.1 hread
  obtain ⟨node, hnode, -⟩ := bind_eq_ok.1 hbytes
  rw [FileTree.pathExists, hnode]
  rfl

theorem Holds.append (h : Holds files paths objects) (hlayer : IsLayer files path members) :
    Holds files (paths ++ [path]) (objects ++ [members]) := by
  unfold Holds
  rw [List.filter_append, List.filter_cons_of_pos hlayer.pathExists]
  exact List.rel_append h (.cons hlayer .nil)

theorem Stops.cons_missing (h : Stops files paths e) (hpath : files.pathExists path = false) :
    Stops files (path :: paths) e := by
  obtain ⟨before, bad, after, ls, rfl, hbefore, hbad, he⟩ := h
  exact ⟨path :: before, bad, after, ls, rfl, hbefore.cons_missing hpath, hbad, he⟩

theorem Stops.cons (h : Stops files paths e) (hpath : files.pathExists path = true)
    (hlayer : IsLayer files path members) : Stops files (path :: paths) e := by
  obtain ⟨before, bad, after, ls, rfl, hbefore, hbad, he⟩ := h
  exact ⟨path :: before, bad, after, members :: ls, rfl, hbefore.cons hpath hlayer, hbad, he⟩

theorem stops_or_holds (files : FileTree) (paths : List String) :
    (∃ e, Stops files paths e) ∨ ∃ objects, Holds files paths objects := by
  induction paths with
  | nil => exact .inr ⟨[], .nil⟩
  | cons path paths ih =>
    cases hpath : files.pathExists path with
    | false =>
      rcases ih with ⟨e, h⟩ | ⟨ls, h⟩
      · exact .inl ⟨e, h.cons_missing hpath⟩
      · exact .inr ⟨ls, h.cons_missing hpath⟩
    | true =>
      rcases isLayer_or_unusable files path with ⟨members, hlayer⟩ | ⟨e, he⟩
      · rcases ih with ⟨e, h⟩ | ⟨ls, h⟩
        · exact .inl ⟨e, h.cons hpath hlayer⟩
        · exact .inr ⟨members :: ls, h.cons hpath hlayer⟩
      · exact .inl ⟨e, [], path, paths, [], rfl, .nil, hpath, he⟩

/-- Files that can be used are put over each other, and what follows goes on from there. -/
theorem layers_append_of_holds {first : List String} (h : Holds files first objects)
    (known : Json.Members) (rest : List String) :
    (layers files known (first ++ rest)).2 =
      (layers files (objects.foldl Json.merge known) rest).2 := by
  rw [← layers_filter, ← layers_filter _ rest, List.filter_append]
  have hexists : ∀ path ∈ first.filter files.pathExists, files.pathExists path = true :=
    fun path hpath => (List.mem_filter.1 hpath).2
  unfold Holds at h
  generalize first.filter files.pathExists = present at h hexists ⊢
  induction h generalizing known with
  | nil => rfl
  | cons hlayer _ ih =>
    obtain ⟨hpath, hexists⟩ := List.forall_mem_cons.1 hexists
    rw [List.cons_append, layers_of_pathExists hpath, readMembers_of_isLayer hlayer]
    exact ih _ hexists

theorem load_of_holds (h : Holds files paths objects) :
    (load files paths).2 = ofMembers (objects.foldl Json.merge []) := by
  have hlayers := layers_append_of_holds h [] []
  rw [List.append_nil] at hlayers
  exact congrArg (·.bind ofMembers) hlayers

theorem load_of_stops (h : Stops files paths e) : (load files paths).2 = .error e := by
  obtain ⟨before, path, after, ls, rfl, hbefore, hpath, he⟩ := h
  have hlayers : (layers files [] (before ++ path :: after)).2 = .error e := by
    rw [layers_append_of_holds hbefore, layers_of_pathExists hpath, readMembers_of_unusable he]
    rfl
  exact congrArg (·.bind ofMembers) hlayers

/-! ## What counts of a key -/

/-- The value of a key in the last object that has it. -/
def lastValue (objects : List Json.Members) (key : String) : Option Json :=
  objects.reverse.findSome? (·.find? key)

theorem lastValue_append (first second : List Json.Members) (key : String) :
    lastValue (first ++ second) key = (lastValue second key).or (lastValue first key) := by
  rw [lastValue, List.reverse_append, List.findSome?_append]
  rfl

theorem lastValue_singleton (members : Json.Members) (key : String) :
    lastValue [members] key = members.find? key := by
  cases h : members.find? key <;> simp [lastValue, h]

theorem lastValue_cons (members : Json.Members) (objects : List Json.Members) (key : String) :
    lastValue (members :: objects) key = (lastValue objects key).or (members.find? key) := by
  rw [← List.singleton_append, lastValue_append, lastValue_singleton]

theorem lastValue_eq_none_iff {key : String} :
    lastValue objects key = none ↔ ∀ members ∈ objects, members.find? key = none := by
  rw [lastValue, List.findSome?_eq_none_iff]
  exact forall_congr' fun _ => by rw [List.mem_reverse]

theorem find?_foldl_merge (h : ∀ members ∈ objects, members.Distinct) (known : Json.Members)
    (key : String) :
    (objects.foldl Json.merge known).find? key = (lastValue objects key).or (known.find? key) := by
  induction objects generalizing known with
  | nil => rfl
  | cons members objects ih =>
    obtain ⟨hmembers, h⟩ := List.forall_mem_cons.1 h
    rw [List.foldl_cons, ih h, Json.find?_merge known hmembers, lastValue_cons, Option.or_assoc]

theorem Holds.distinct (h : Holds files paths objects) : ∀ members ∈ objects, members.Distinct := by
  unfold Holds at h
  generalize paths.filter files.pathExists = present at h
  induction h with
  | nil => nofun
  | cons hlayer _ ih => exact List.forall_mem_cons.2 ⟨hlayer.distinct, ih⟩

theorem Holds.find?_merged (h : Holds files paths objects) (key : String) :
    (objects.foldl Json.merge []).find? key = lastValue objects key := by
  rw [find?_foldl_merge h.distinct]
  exact Option.or_none

/-! ## Settings from what is found -/

/-- A setting is read from the value that is found, and has its default if none is found. -/
inductive Sets (read : Json → Option α) (default : α) : Option Json → α → Prop
  | absent : Sets read default none default
  | given {value : Json} {a : α} (h : read value = some a) : Sets read default (some value) a

/-- What is found under the keys describes the settings. -/
structure Describes (found : String → Option Json) (settings : Settings) : Prop where
  wordBoundaryStores :
    Sets Json.bool? false (found "word_boundary_stores") settings.wordBoundaryStores
  reorderWindow : Sets (Json.natUpTo? maxWindow) 4 (found "reorder_window") settings.reorderWindow
  shadowResetValue : Sets Json.word? 0 (found "shadow_reset_value") settings.shadowResetValue
  golden : Sets LogFilter.ofJson? {} (found "golden") settings.golden

/-- At least one commit is searched, and no range is reversed. -/
structure Valid (settings : Settings) : Prop where
  window : 1 ≤ settings.reorderWindow
  range : ∀ first last, settings.golden.debugRom = some (first, last) → first ≤ last

/-- No valid settings have this value under this key. -/
def Bad (key : String) (value : Json) : Prop :=
  ∀ found settings, found key = some value → Describes found settings → ¬ Valid settings

theorem natUpTo?_nat {max n : Nat} (h : n ≤ max) : Json.natUpTo? max (.nat n) = some n := by
  simp only [Json.nat, Json.natUpTo?, Json.Reader.toNat?_toString, Option.filter_some, h, decide_true,
    if_true]

theorem memberOr_eq_some {key : String} {read : Json → Option α} {default a : α} :
    Json.memberOr members key read default = some a ↔ Sets read default (members.find? key) a := by
  unfold Json.memberOr
  cases members.find? key with
  | none =>
    constructor
    · rintro ⟨⟩
      exact .absent
    · rintro ⟨⟩
      rfl
  | some value => exact ⟨.given, fun | .given h => h⟩

theorem ofMembers?_eq_some :
    ofMembers? members = some settings ↔ Describes members.find? settings := by
  constructor
  · intro h
    obtain ⟨stores, hstores, h⟩ := Option.bind_eq_some_iff.1 h
    obtain ⟨window, hwindow, h⟩ := Option.bind_eq_some_iff.1 h
    obtain ⟨reset, hreset, h⟩ := Option.bind_eq_some_iff.1 h
    obtain ⟨golden, hgolden, h⟩ := Option.bind_eq_some_iff.1 h
    cases h
    exact ⟨memberOr_eq_some.1 hstores, memberOr_eq_some.1 hwindow, memberOr_eq_some.1 hreset,
      memberOr_eq_some.1 hgolden⟩
  · intro h
    exact Option.bind_eq_some_iff.2 ⟨_, memberOr_eq_some.2 h.wordBoundaryStores,
      Option.bind_eq_some_iff.2 ⟨_, memberOr_eq_some.2 h.reorderWindow,
      Option.bind_eq_some_iff.2 ⟨_, memberOr_eq_some.2 h.shadowResetValue,
      Option.bind_eq_some_iff.2 ⟨_, memberOr_eq_some.2 h.golden, rfl⟩⟩⟩⟩

theorem validate_eq_ok {final : Settings} :
    settings.validate = .ok final ↔ settings = final ∧ Valid settings := by
  unfold validate
  split
  · next hwindow => exact ⟨nofun, fun ⟨_, h⟩ => absurd h.window (by omega)⟩
  · next hwindow =>
    have hpositive : 1 ≤ settings.reorderWindow := Nat.pos_of_ne_zero hwindow
    split
    · next first last hrange =>
      split
      · next hreversed =>
        exact ⟨nofun, fun ⟨_, h⟩ => absurd hreversed (UInt32.not_lt.2 (h.range _ _ hrange))⟩
      · next hordered =>
        have hvalid : Valid settings := by
          refine ⟨hpositive, fun _ _ h => ?_⟩
          cases hrange.symm.trans h
          exact UInt32.not_lt.1 hordered
        exact ⟨fun h => ⟨Except.ok.inj h, hvalid⟩, fun h => congrArg Except.ok h.1⟩
    · next hnone =>
      have hvalid : Valid settings := ⟨hpositive, fun _ _ h => by cases hnone.symm.trans h⟩
      exact ⟨fun h => ⟨Except.ok.inj h, hvalid⟩, fun h => congrArg Except.ok h.1⟩

theorem ofMembers_eq_ok :
    ofMembers members = .ok settings ↔ Describes members.find? settings ∧ Valid settings := by
  unfold ofMembers
  cases hmembers : ofMembers? members with
  | none =>
    refine ⟨nofun, fun ⟨h, _⟩ => ?_⟩
    cases hmembers.symm.trans (ofMembers?_eq_some.2 h)
  | some final =>
    rw [mapError_eq_ok, validate_eq_ok, ← ofMembers?_eq_some, hmembers, Option.some_inj]
    exact and_congr_right fun h => h ▸ Iff.rfl

theorem ofMembers_eq_error (h : ofMembers members = .error e) :
    ∃ fault, e = .invalidSettings fault := by
  unfold ofMembers at h
  split at h
  · cases h
    exact ⟨_, rfl⟩
  · next settings hsettings =>
    cases hvalid : settings.validate with
    | ok final =>
      rw [hvalid] at h
      cases h
    | error fault =>
      rw [hvalid] at h
      cases h
      exact ⟨fault, rfl⟩

/-- Settings that are described are only looked at whether they are valid. -/
theorem ofMembers_of_describes (h : Describes members.find? settings) :
    ofMembers members = settings.validate.mapError .invalidSettings := by
  rw [ofMembers, ofMembers?_eq_some.2 h]

/-- Settings are made of nothing but what is found under the keys. -/
theorem ofMembers_congr {other : Json.Members} (h : ∀ key, members.find? key = other.find? key) :
    ofMembers members = ofMembers other := by
  simp only [ofMembers, ofMembers?, Json.memberOr, h]

/-! ## All files -/

theorem load_eq_ok (h : Holds files paths objects) :
    (load files paths).2 = .ok settings ↔ Describes (lastValue objects) settings ∧ Valid settings := by
  rw [load_of_holds h, ofMembers_eq_ok, funext h.find?_merged]

theorem load_of_describes (h : Holds files paths objects)
    (hdescribes : Describes (lastValue objects) settings) :
    (load files paths).2 = settings.validate.mapError .invalidSettings := by
  rw [load_of_holds h]
  rw [← funext h.find?_merged] at hdescribes
  exact ofMembers_of_describes hdescribes

/-- A value that a later file replaces does not matter. -/
theorem load_of_replaced {files' : FileTree} {paths' : List String}
    {before after : List Json.Members} {members' : Json.Members} {key : String}
    (h : Holds files paths (before ++ members :: after))
    (h' : Holds files' paths' (before ++ members' :: after))
    (hsame : ∀ other, other ≠ key → members'.find? other = members.find? other)
    (hlater : lastValue after key ≠ none) : (load files' paths').2 = (load files paths).2 := by
  rw [load_of_holds h, load_of_holds h']
  apply ofMembers_congr
  intro other
  rw [h.find?_merged, h'.find?_merged]
  simp only [lastValue_append, lastValue_cons]
  by_cases hother : other = key
  · subst hother
    obtain ⟨value, hvalue⟩ := Option.ne_none_iff_exists'.1 hlater
    simp only [hvalue, Option.some_or]
  · rw [hsame other hother]

/-- A bad value that no later file replaces is fatal. -/
theorem load_of_bad {key : String} {value : Json} (h : Holds files paths objects)
    (hlast : lastValue objects key = some value) (hbad : Bad key value) :
    ∃ fault, (load files paths).2 = .error (.invalidSettings fault) := by
  cases hload : (load files paths).2 with
  | ok settings =>
    obtain ⟨hdescribes, hvalid⟩ := (load_eq_ok h).1 hload
    exact absurd hvalid (hbad _ _ hlast hdescribes)
  | error e =>
    obtain ⟨fault, rfl⟩ := ofMembers_eq_error ((load_of_holds h).symm.trans hload)
    exact ⟨fault, rfl⟩

/-- What is loaded is described by files that can all be used, and valid. -/
theorem holds_of_load (h : (load files paths).2 = .ok settings) :
    ∃ objects, Holds files paths objects ∧ Describes (lastValue objects) settings ∧ Valid settings := by
  rcases stops_or_holds files paths with ⟨e, hstops⟩ | ⟨objects, hholds⟩
  · cases (load_of_stops hstops).symm.trans h
  · exact ⟨objects, hholds, (load_eq_ok hholds).1 h⟩

/-- **Settings files are put over each other key by key.** Files that do not exist may stand anywhere among the
others. The first file that exists and cannot be used decides the error. If there is none, then the settings are
the valid ones that the value of each key in the last file that has it describes, with defaults for the keys that
no file has. So a bad value is as good as any other if a later file has its key, and otherwise it is fatal. What
is loaded is valid. -/
theorem load_layers (files : FileTree) (paths : List String) :
    (∀ others, others.filter files.pathExists = paths.filter files.pathExists →
      (load files others).2 = (load files paths).2) ∧
    (∀ e, Stops files paths e → (load files paths).2 = .error e) ∧
    ((∃ e, Stops files paths e) ∨ ∃ objects, Holds files paths objects) ∧
    (∀ objects, Holds files paths objects →
      (∀ settings, (load files paths).2 = .ok settings ↔
        Describes (lastValue objects) settings ∧ Valid settings) ∧
      ∀ before members after key value, objects = before ++ members :: after →
        members.find? key = some value → Bad key value →
          ((∃ later ∈ after, later.find? key ≠ none) → ∀ files' paths' members',
            (∀ other, other ≠ key → members'.find? other = members.find? other) →
              Holds files' paths' (before ++ members' :: after) →
                (load files' paths').2 = (load files paths).2) ∧
          ((∀ later ∈ after, later.find? key = none) →
            ∃ fault, (load files paths).2 = .error (.invalidSettings fault))) ∧
    ∀ settings, (load files paths).2 = .ok settings → Valid settings := by
  refine ⟨fun others h => ?_, fun e h => load_of_stops h, stops_or_holds files paths,
    fun objects h => ⟨fun settings => load_eq_ok h, ?_⟩, fun settings h => ?_⟩
  · have hsame : (layers files [] others).2 = (layers files [] paths).2 := by
      rw [← layers_filter [] others, h, layers_filter]
    exact congrArg (·.bind ofMembers) hsame
  · rintro before members after key value rfl hvalue hbad
    constructor
    · rintro ⟨later, hlater, hkey⟩ files' paths' members' hsame h'
      exact load_of_replaced h h' hsame fun hnone => hkey (lastValue_eq_none_iff.1 hnone later hlater)
    · intro hnone
      refine load_of_bad h ?_ hbad
      rw [lastValue_append, lastValue_cons, lastValue_eq_none_iff.2 hnone, hvalue]
      rfl
  · obtain ⟨objects, -, -, hvalid⟩ := holds_of_load h
    exact hvalid

/-- A window of no commits, and a window of two. -/
def twoLayers : FileTree :=
  (FileTree.empty.insert ["base.json"]
    (.file (Json.object [("reorder_window", .nat 0)]).text.toUTF8)).insert ["over.json"]
      (.file (Json.object [("reorder_window", .nat 2)]).text.toUTF8)

theorem bad_emptyWindow : Bad "reorder_window" (.nat 0) := by
  intro found settings hfound hdescribes hvalid
  have hwindow := hdescribes.reorderWindow
  rw [hfound] at hwindow
  cases hwindow with
  | given h =>
    rw [natUpTo?_nat (Nat.zero_le _)] at h
    exact absurd hvalid.window (by rw [← Option.some.inj h]; decide)

/-- The bad window counts if its file is the last one. -/
theorem load_layers_of_emptyWindow :
    (load twoLayers ["base.json", "missing.json", "over.json"]).2 = .ok { reorderWindow := 2 } ∧
    ∃ fault, (load twoLayers ["over.json", "base.json"]).2 = .error (.invalidSettings fault) := by
  have hexists : ["base.json", "missing.json", "over.json"].filter twoLayers.pathExists =
      ["base.json", "over.json"] := by
    decide +kernel
  have hwindow (n : Nat) (h : n < UInt64.size) :
      ∀ m ∈ [("reorder_window", Json.nat n)], (Json.reader 126).Takes m.2 (.ok m.2) :=
    List.forall_mem_singleton.2 (Json.reader_takes_nat h)
  have hbase : IsLayer twoLayers "base.json" [("reorder_window", .nat 0)] :=
    isLayer_of_written (by decide +kernel) (by decide) (hwindow 0 (by decide))
  have hover : IsLayer twoLayers "over.json" [("reorder_window", .nat 2)] :=
    isLayer_of_written (by decide +kernel) (by decide) (hwindow 2 (by decide))
  constructor
  · obtain ⟨-, -, -, hload, -⟩ :=
      load_layers twoLayers ["base.json", "missing.json", "over.json"]
    have hholds : Holds twoLayers ["base.json", "missing.json", "over.json"]
        [[("reorder_window", .nat 0)], [("reorder_window", .nat 2)]] := by
      unfold Holds
      rw [hexists]
      exact .cons hbase (.cons hover .nil)
    refine ((hload _ hholds).1 _).2 ⟨⟨.absent, .given (natUpTo?_nat (by decide)), .absent, .absent⟩, ?_⟩
    exact ⟨by decide, fun first last hrange => by cases hrange; decide⟩
  · obtain ⟨-, -, -, hload, -⟩ := load_layers twoLayers ["over.json", "base.json"]
    have hholds : Holds twoLayers ["over.json", "base.json"]
        [[("reorder_window", .nat 2)], [("reorder_window", .nat 0)]] := by
      unfold Holds
      have hboth : ["over.json", "base.json"].filter twoLayers.pathExists =
          ["over.json", "base.json"] := by
        decide +kernel
      rw [hboth]
      exact .cons hover (.cons hbase .nil)
    exact ((hload _ hholds).2 [[("reorder_window", .nat 2)]] _ [] _ _ rfl rfl bad_emptyWindow).2 nofun

end Lockstep.Settings
