import Mathlib.Logic.Relation
import Lockstep.Proofs.Interleaving
import Lockstep.Proofs.Naming

/-!
# Pairs do not meet

However the steps of the pairs of a batch follow each other, each pair gets as far as it would have got alone
in as many steps (`exists_taken`), by induction over the turns with the step lemma `Stage.next_agrees`. If the
pairs have different names, then what they leave behind is what each of them leaves alone, put together
(`FileTree.Joins`). A batch that treats its pairs one after the other, in whatever order, is one of the ways in
which they can take turns (`exists_turns_mapM`).

All this is about pairs as directories give them: their traces are files from the beginning, and are called as
traces are (`TracePair.IsPaired`). Other pairs of different names may meet (`Pairing.OrderMatters`).
-/

namespace Lockstep

open FileTree (Adds Overlays Prepared Reached)
open OutputFiles (IsFor IsForSome)

variable {pair : TracePair} {output : Option String} {settings : Settings}
  {before files : FileTree} {s : Session}

/-! ## Changes put together -/

/-- What is at a place after several verifications is what one of them alone changes there, or else what was
there before. -/
structure FileTree.Joins (before : FileTree) (alone : List FileTree) (after : FileTree) : Prop where
  changed : ∀ tree ∈ alone, ∀ place, tree.find? place ≠ before.find? place →
    after.find? place = tree.find? place
  unchanged : ∀ place, (∀ tree ∈ alone, tree.find? place = before.find? place) →
    after.find? place = before.find? place

namespace FileTree.Joins

variable {alone : List FileTree} {after other : FileTree}

theorem congr {same : List FileTree} (h : Joins before alone after)
    (hsame : ∀ tree, tree ∈ same ↔ tree ∈ alone) : Joins before same after where
  changed tree htree := h.changed tree ((hsame tree).1 htree)
  unchanged place hplace := h.unchanged place fun tree htree => hplace tree ((hsame tree).2 htree)

theorem middle_iff {first last : List FileTree} {tree : FileTree} :
    Joins before (first ++ tree :: last) after ↔ Joins before (tree :: (first ++ last)) after :=
  ⟨fun h => h.congr fun _ => List.perm_middle.symm.mem_iff,
    fun h => h.congr fun _ => List.perm_middle.mem_iff⟩

/-- The directory that one pair makes alone is made in a batch, now or before. -/
theorem make {made after' : FileTree} {others : List FileTree}
    (h : Joins before (before :: others) after) (hadds : Adds before made)
    (hafter : after = before ∧ after' = made ∨ Overlays IsForSome made after ∧ after' = after) :
    Joins before (made :: others) after' := by
  refine ⟨fun tree htree place hne => ?_, fun place hplace => ?_⟩
  · rcases List.mem_cons.1 htree with rfl | htree
    · rcases hafter with ⟨-, rfl⟩ | ⟨hoverlay, rfl⟩
      · rfl
      · obtain ⟨-, hdirectory⟩ := (hadds place).resolve_left hne
        rw [hdirectory]
        exact (hoverlay.find?_eq_directory_iff place).2 hdirectory
    · have hold := h.changed tree (List.mem_cons_of_mem _ htree) place hne
      rcases hafter with ⟨rfl, rfl⟩ | ⟨-, rfl⟩
      · exact absurd hold.symm hne
      · exact hold
  · obtain ⟨hmade, hrest⟩ := List.forall_mem_cons.1 hplace
    rcases hafter with ⟨-, rfl⟩ | ⟨-, rfl⟩
    · exact hmade
    · exact h.unchanged place (List.forall_mem_cons.2 ⟨rfl, hrest⟩)

/-- A file that one pair writes alone is written in a batch, where no other pair changes anything. -/
theorem insert {tree : FileTree} {others : List FileTree} {written : FileTree.Place}
    (h : Joins before (tree :: others) after) (bytes : ByteArray)
    (htree : tree.find? written ≠ some .directory) (hafter : after.find? written ≠ some .directory)
    (hothers : ∀ other ∈ others, other.find? written = before.find? written) :
    Joins before (tree.insert written (.file bytes) :: others)
      (after.insert written (.file bytes)) := by
  refine ⟨fun changed hmem place hne => ?_, fun place hplace => ?_⟩
  · rw [FileTree.find?_insert_of_ne hafter]
    rcases List.mem_cons.1 hmem with rfl | hrest
    · rw [FileTree.find?_insert_of_ne htree] at hne ⊢
      split
      · rfl
      · next hother =>
        rw [if_neg hother] at hne
        exact h.changed tree List.mem_cons_self place hne
    · rw [if_neg]
      · exact h.changed changed (List.mem_cons_of_mem _ hrest) place hne
      · rintro rfl
        exact hne (hothers changed hrest)
  · obtain ⟨hwritten, hrest⟩ := List.forall_mem_cons.1 hplace
    rw [FileTree.find?_insert_of_ne htree] at hwritten
    rw [FileTree.find?_insert_of_ne hafter]
    split
    · next hplace =>
      rw [if_pos hplace] at hwritten
      exact hwritten
    · next hother =>
      rw [if_neg hother] at hwritten
      exact h.unchanged place (List.forall_mem_cons.2 ⟨hwritten, hrest⟩)

end FileTree.Joins

/-- What another pair writes alone is not where the files of this pair are. -/
theorem find?_of_reached {program file directory : String} {made tree : FileTree}
    {place : FileTree.Place} (h : Reached (IsFor program) before output tree)
    (hprogram : program ≠ pair.name) (houtput : output = some directory)
    (hmade : before.createDirectories directory = .ok made)
    (hfree : made.find? place ≠ some .directory) (hlast : place.getLast? = some file)
    (hfor : IsFor pair.name file) : tree.find? place = before.find? place := by
  have hsame : made.find? place = before.find? place := by
    rcases FileTree.createDirectories_adds hmade place with hsame | ⟨-, hdirectory⟩
    · exact hsame
    · exact absurd hdirectory hfree
  rcases h with rfl | ⟨other, hother, made', hmade', htree⟩
  · rfl
  · obtain rfl : directory = other := Option.some.inj (houtput.symm.trans hother)
    obtain rfl : made = made' := Except.ok.inj (hmade.symm.trans hmade')
    rcases htree place with hkept | ⟨-, -, name, hname, hwritten⟩
    · exact hkept.trans hsame
    · obtain rfl : file = name := Option.some.inj (hlast.symm.trans hname)
      exact absurd (hwritten.program_eq hfor) hprogram

/-- A step of one pair keeps the changes of all pairs together. -/
theorem FileTree.Joins.of_alike {alone alone' files' : FileTree} {others : List FileTree}
    (h : Joins before (alone :: others) files)
    (hstep : Stage.Alike pair output before alone alone' files files')
    (hothers : ∀ tree ∈ others, ∃ program, program ≠ pair.name ∧
      Reached (IsFor program) before output tree) : Joins before (alone' :: others) files' := by
  cases hstep with
  | read => exact h
  | make houtput hmade hfiles => exact h.make (FileTree.createDirectories_adds hmade) hfiles
  | write bytes houtput hmade hfree hlast hfor halone hfiles =>
    apply h.insert bytes
    · exact fun hdirectory => hfree ((halone.find?_eq_directory_iff _).1 hdirectory)
    · exact fun hdirectory => hfree ((hfiles.find?_eq_directory_iff _).1 hdirectory)
    · intro tree htree
      obtain ⟨program, hprogram, hreached⟩ := hothers tree htree
      exact find?_of_reached hreached hprogram houtput hmade hfree hlast hfor

/-! ## Turns -/

/-- A pair, and how far its verification has come. -/
structure Task where
  pair : TracePair
  stage : Stage

/-- A batch in progress: the pairs, each at its own stage, and the files that they share. -/
structure Underway where
  tasks : List Task
  files : FileTree

namespace Underway

def start (pairs : List TracePair) (files : FileTree) : Underway where
  tasks := pairs.map fun pair => { pair, stage := .begun }
  files

/-- One of the pairs takes its next step. -/
inductive Turn (output : Option String) (settings : Settings) : Underway → Underway → Prop
  | turn (front back : List Task) (pair : TracePair) (stage : Stage) (files : FileTree) :
    Turn output settings
      { tasks := front ++ { pair, stage } :: back, files }
      { tasks := front ++ { pair, stage := (stage.next pair output settings files).1 } :: back
        files := (stage.next pair output settings files).2 }

/-- Pairs take turns, in any order and any number of them. -/
abbrev Turns (output : Option String) (settings : Settings) : Underway → Underway → Prop :=
  Relation.ReflTransGen (Turn output settings)

def Finished (underway : Underway) : Prop :=
  ∀ task ∈ underway.tasks, ∃ result, task.stage = .done result

end Underway

open Underway (Turn Turns)

/-! ## Each pair as if it were alone -/

/-- A pair after a number of its own steps. -/
abbrev Taken := TracePair × Nat

namespace Taken

/-- The stage and the files of the pair after so many steps alone. -/
def alone (output : Option String) (settings : Settings) (before : FileTree) (taken : Taken) :
    Stage × FileTree :=
  Stage.solo taken.1 output settings before taken.2

/-- The pair at the stage that it reaches alone. -/
def task (output : Option String) (settings : Settings) (before : FileTree) (taken : Taken) : Task where
  pair := taken.1
  stage := (taken.alone output settings before).1

end Taken

/-- In a batch, each pair is at a stage that it reaches alone, and the changes are put together. -/
structure Underway.Follows (output : Option String) (settings : Settings) (before : FileTree)
    (underway : Underway) (taken : List Taken) : Prop where
  tasks : underway.tasks = taken.map (Taken.task output settings before)
  alone : ∀ t ∈ taken, (t.alone output settings before).1.Alone t.1 output before
    (t.alone output settings before).2
  shared : ∀ t ∈ taken, (t.alone output settings before).1.Shared output before underway.files
  joins : (taken.map (·.1.name)).Nodup →
    before.Joins (taken.map fun t => (t.alone output settings before).2) underway.files

theorem Underway.follows_start (pairs : List TracePair) (before : FileTree) :
    (Underway.start pairs before).Follows output settings before (pairs.map (·, 0)) where
  tasks := by
    rw [List.map_map]
    rfl
  alone := by
    intro t ht
    obtain ⟨pair, -, rfl⟩ := List.mem_map.1 ht
    exact rfl
  shared := by
    intro t ht
    obtain ⟨pair, -, rfl⟩ := List.mem_map.1 ht
    exact .inl rfl
  joins := by
    intro _
    rw [List.map_map]
    refine ⟨fun tree htree place hne => ?_, fun _ _ => rfl⟩
    obtain ⟨pair, -, rfl⟩ := List.mem_map.1 htree
    exact absurd rfl hne

/-- A turn is a step that its pair takes alone. -/
theorem Underway.Follows.turn {underway next : Underway} {taken : List Taken}
    (hpairs : ∀ t ∈ taken, t.1.IsPaired before)
    (h : underway.Follows output settings before taken) (hturn : Turn output settings underway next) :
    ∃ taken' : List Taken, taken'.map Prod.fst = taken.map Prod.fst ∧
      next.Follows output settings before taken' := by
  obtain ⟨front, back, _, _, files⟩ := hturn
  obtain ⟨htasks, halone, hshared, hjoins⟩ := h
  obtain ⟨first, rest, rfl, rfl, hrest⟩ := List.map_eq_append_iff.1 htasks.symm
  obtain ⟨⟨pair, n⟩, last, rfl, hpair, rfl⟩ := List.map_eq_cons_iff.1 hrest
  cases hpair
  have hmem : (pair, n) ∈ first ++ (pair, n) :: last :=
    List.mem_append_right _ List.mem_cons_self
  have hstep := Stage.next_agrees settings (hpairs _ hmem) (halone _ hmem) (hshared _ hmem)
  have hothers : ∀ t ∈ first ++ (pair, n + 1) :: last,
      t = (pair, n + 1) ∨ t ∈ first ++ (pair, n) :: last := by
    simp only [List.mem_append, List.mem_cons]
    tauto
  refine ⟨first ++ (pair, n + 1) :: last, by simp, ?_, ?_, ?_, ?_⟩
  · have htask : Taken.task output settings before (pair, n + 1) =
        { pair, stage := (Stage.next pair output settings
            (Taken.task output settings before (pair, n)).stage files).1 } :=
      congrArg (Task.mk pair) hstep.stage_eq.symm
    rw [List.map_append, List.map_cons, htask]
    rfl
  · intro t ht
    rcases hothers t ht with rfl | ht
    · exact hstep.of_alone
    · exact halone t ht
  · intro t ht
    rcases hothers t ht with rfl | ht
    · have hof := hstep.of_shared
      rw [hstep.stage_eq] at hof
      exact hof
    · exact (hshared t ht).of_alike hstep.alike
  · intro hnames
    rw [List.map_append, List.map_cons] at hnames
    obtain ⟨hfresh, -⟩ := List.nodup_cons.1 (List.perm_middle.nodup_iff.1 hnames)
    have hjoined := hjoins (by rw [List.map_append, List.map_cons]; exact hnames)
    rw [List.map_append, List.map_cons, FileTree.Joins.middle_iff, ← List.map_append] at hjoined ⊢
    apply hjoined.of_alike hstep.alike
    intro tree htree
    obtain ⟨t, ht, rfl⟩ := List.mem_map.1 htree
    refine ⟨t.1.name, ?_, (halone t ?_).reached⟩
    · rintro hname
      rw [← List.map_append] at hfresh
      exact hfresh (List.mem_map.2 ⟨t, ht, hname⟩)
    · exact (List.perm_middle.mem_iff).2 (List.mem_cons_of_mem _ ht)

/-- The run lemma: after any turns, each pair is where it would be alone after some steps. -/
theorem exists_taken {pairs : List TracePair} {underway : Underway}
    (hpairs : ∀ pair ∈ pairs, pair.IsPaired before)
    (h : Turns output settings (Underway.start pairs before) underway) :
    ∃ taken : List Taken, taken.map Prod.fst = pairs ∧
      underway.Follows output settings before taken := by
  induction h with
  | refl =>
    exact ⟨pairs.map (·, 0), by simp [Function.comp_def], Underway.follows_start pairs before⟩
  | tail _ hturn ih =>
    obtain ⟨taken, hfst, hfollows⟩ := ih
    have htaken : ∀ t ∈ taken, t.1.IsPaired before := fun t ht =>
      hpairs t.1 (hfst ▸ List.mem_map_of_mem ht)
    obtain ⟨taken', hfst', hfollows'⟩ := hfollows.turn htaken hturn
    exact ⟨taken', hfst'.trans hfst, hfollows'⟩

/-! ## Finished batches -/

/-- What comes of a pair alone. -/
def BatchEntry.alone (output : Option String) (settings : Settings) (s : Session)
    (pair : TracePair) : BatchEntry where
  name := pair.name
  result := Action.outcome (verifyPair pair output settings s)

/-- The files that a pair leaves alone. -/
def TracePair.filesAlone (output : Option String) (settings : Settings) (s : Session)
    (pair : TracePair) : FileTree :=
  Action.filesAfter (verifyPair pair output settings s)

/-- The report on a batch whose pairs are each verified alone. -/
def BatchReport.alone (pairing : Pairing) (output : Option String) (settings : Settings)
    (s : Session) : BatchReport where
  entries := (pairing.pairs.map (BatchEntry.alone output settings s)).mergeSort
    fun a b => decide (a.name ≤ b.name)
  skipped := pairing.skipped

/-- A pair that is done has come to the end of its verification. -/
theorem Stage.solo_verifyPair_of_done {n : Nat} {result : Except Error ProgramReport}
    {after : FileTree} (h : solo pair output settings s.files n = (done result, after)) :
    result = (BatchEntry.alone output settings s pair).result ∧
      after = pair.filesAlone output settings s := by
  have hlength := solo_add_of_done (solo_verifyPair pair output settings s) n
  rw [Nat.add_comm, solo_add_of_done h length] at hlength
  cases hlength
  exact ⟨rfl, rfl⟩

theorem Underway.Finished.eq_alone {pairs : List TracePair} {underway : Underway}
    (hpairs : ∀ pair ∈ pairs, pair.IsPaired s.files)
    (h : Turns output settings (Underway.start pairs s.files) underway)
    (hfinished : underway.Finished) :
    underway.tasks = (pairs.map fun pair =>
        { pair, stage := .done (BatchEntry.alone output settings s pair).result }) ∧
      ((pairs.map (·.name)).Nodup →
        s.files.Joins (pairs.map (TracePair.filesAlone output settings s)) underway.files) := by
  obtain ⟨taken, rfl, hfollows⟩ := exists_taken hpairs h
  have halone : ∀ t ∈ taken, t.alone output settings s.files =
      (.done (BatchEntry.alone output settings s t.1).result,
        t.1.filesAlone output settings s) := by
    intro t ht
    obtain ⟨result, hstage⟩ := hfinished (t.task output settings s.files)
      (hfollows.tasks ▸ List.mem_map_of_mem ht)
    obtain ⟨rfl, hfiles⟩ := Stage.solo_verifyPair_of_done (Prod.ext hstage rfl)
    rw [← hfiles]
    exact Prod.ext hstage rfl
  constructor
  · rw [hfollows.tasks, List.map_map]
    apply List.map_congr_left
    intro t ht
    simp only [Taken.task, halone t ht, Function.comp_apply]
  · intro hnames
    rw [List.map_map] at hnames ⊢
    have hjoins := hfollows.joins hnames
    rw [List.map_congr_left fun t ht => congrArg Prod.snd (halone t ht)] at hjoins
    exact hjoins

/-! ## One pair after the other -/

/-- The turns of a pair that nothing comes between. -/
theorem Underway.turns_solo (output : Option String) (settings : Settings) (front back : List Task)
    (pair : TracePair) (files : FileTree) (n : Nat) :
    Turns output settings
      { tasks := front ++ { pair, stage := .begun } :: back, files }
      { tasks := front ++ { pair, stage := (Stage.solo pair output settings files n).1 } :: back
        files := (Stage.solo pair output settings files n).2 } := by
  induction n with
  | zero => exact .refl
  | succ n ih => exact ih.tail (.turn front back pair _ _)

/-- A batch that treats its pairs one after the other. -/
theorem exists_turns_mapM (output : Option String) (settings : Settings) (front : List Task)
    (pairs : List TracePair) (s : Session) :
    ∃ (ended : List (TracePair × Except Error ProgramReport)) (s' : Session),
      ended.map Prod.fst = pairs ∧
      pairs.mapM (runPair output settings) s =
        .ok (ended.map fun (pair, result) => { name := pair.name, result }) s' ∧
      Turns output settings
        { tasks := front ++ pairs.map fun pair => { pair, stage := .begun }, files := s.files }
        { tasks := front ++ ended.map fun (pair, result) => { pair, stage := .done result }
          files := s'.files } := by
  induction pairs generalizing front s with
  | nil => exact ⟨[], s, rfl, rfl, .refl⟩
  | cons pair rest ih =>
    obtain ⟨between, hrun, hfiles, -⟩ := runPair_eq_ok output settings pair s
    have hsolo := Underway.turns_solo output settings front
      (rest.map fun pair => { pair, stage := .begun }) pair s.files Stage.length
    rw [Stage.solo_verifyPair, ← hfiles] at hsolo
    obtain ⟨ended, s', hfst, hruns, hturns⟩ := ih
      (front ++ [{ pair, stage := .done (Action.outcome (verifyPair pair output settings s)) }])
      between
    rw [List.append_assoc, List.append_assoc] at hturns
    refine ⟨(pair, Action.outcome (verifyPair pair output settings s)) :: ended, s', ?_, ?_, ?_⟩
    · rw [List.map_cons, hfst]
    · rw [List.mapM_cons]
      exact Action.bind_eq_ok.2 ⟨_, between, hrun, Action.bind_eq_ok.2 ⟨_, s', hruns, rfl⟩⟩
    · exact hsolo.trans hturns

theorem exists_mapM_alone {pairs : List TracePair} (hpairs : ∀ pair ∈ pairs, pair.IsPaired s.files)
    (output : Option String) (settings : Settings) :
    ∃ s' : Session, pairs.mapM (runPair output settings) s =
        .ok (pairs.map (BatchEntry.alone output settings s)) s' ∧
      ((pairs.map (·.name)).Nodup →
        s.files.Joins (pairs.map (TracePair.filesAlone output settings s)) s'.files) := by
  obtain ⟨ended, s', hfst, hruns, hturns⟩ := exists_turns_mapM output settings [] pairs s
  have hfinished : Underway.Finished
      { tasks := ended.map fun (pair, result) => { pair, stage := .done result }
        files := s'.files } := by
    intro task htask
    obtain ⟨⟨pair, result⟩, -, rfl⟩ := List.mem_map.1 htask
    exact ⟨result, rfl⟩
  obtain ⟨htasks, hjoins⟩ := hfinished.eq_alone hpairs hturns
  refine ⟨s', ?_, hjoins⟩
  -- The stage of a task that is done says what came of it.
  have hentries : ended.map (fun (pair, result) => { name := pair.name, result : BatchEntry }) =
      pairs.map (BatchEntry.alone output settings s) := by
    rw [← hfst, List.map_map] at htasks ⊢
    apply List.map_congr_left
    rintro ⟨pair, result⟩ he
    obtain ⟨-, hstage⟩ := Task.mk.inj (List.map_inj_left.1 htasks _ he)
    exact congrArg (BatchEntry.mk pair.name) (Stage.done.inj hstage)
  rw [hruns, hentries]

/-- What comes of a pair hangs on nothing but the files. -/
theorem BatchEntry.alone_congr {s' : Session} (output : Option String) (settings : Settings)
    (h : s'.files = s.files) :
    BatchEntry.alone output settings s' = BatchEntry.alone output settings s ∧
      TracePair.filesAlone output settings s' = TracePair.filesAlone output settings s := by
  have hsame (pair : TracePair) :
      (alone output settings s' pair).result = (alone output settings s pair).result ∧
        pair.filesAlone output settings s' = pair.filesAlone output settings s := by
    have hsolo := Stage.solo_verifyPair pair output settings s'
    rw [h] at hsolo
    exact Stage.solo_verifyPair_of_done hsolo
  exact ⟨funext fun pair => congrArg (BatchEntry.mk pair.name) (hsame pair).1,
    funext fun pair => (hsame pair).2⟩

/-- The entries of a batch are those that its pairs have alone. -/
theorem runPairs_alone {pool : WorkerPool} {workers : Nat} (hpool : pool.Starts workers)
    (pairing : Pairing) (hpairs : ∀ pair ∈ pairing.pairs, pair.IsPaired s.files)
    (output : Option String) (settings : Settings) :
    ∃ s' : Session, runPairs pool pairing output workers settings s =
        .ok (BatchReport.alone pairing output settings s) s' ∧
      ((pairing.pairs.map (·.name)).Nodup →
        s.files.Joins (pairing.pairs.map (TracePair.filesAlone output settings s)) s'.files) := by
  obtain ⟨s', hruns, hjoins⟩ :=
    exists_mapM_alone (s := s.started pairing workers) hpairs output settings
  have hstarted : (s.started pairing workers).files = s.files := rfl
  obtain ⟨halone, hfiles⟩ := BatchEntry.alone_congr output settings hstarted
  rw [halone] at hruns
  rw [hfiles] at hjoins
  exact ⟨s', runPairs_of_mapM hpool hruns, hjoins⟩

/-! ## The order of the pairs -/

theorem BatchReport.alone_perm (pairing : Pairing) (output : Option String) (settings : Settings)
    (s : Session) : (alone pairing output settings s).entries.Perm
      (pairing.pairs.map (BatchEntry.alone output settings s)) :=
  List.mergeSort_perm _ _

theorem BatchEntry.alone_of_not_read {e : Error} (output : Option String) (settings : Settings)
    (h : pair.traces s.files = .error e) :
    (BatchEntry.alone output settings s pair).result = .error e ∧
      pair.filesAlone output settings s = s.files := by
  unfold BatchEntry.alone TracePair.filesAlone
  rw [verifyPair_of_not_read output settings h]
  exact ⟨rfl, rfl⟩

end Lockstep
