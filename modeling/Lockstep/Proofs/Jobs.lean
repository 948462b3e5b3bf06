import Lockstep.Proofs.Counters
import Lockstep.Proofs.Isolation

/-!
# Pairs that count while they take turns

The workers of a batch add to the same counters, and each of them in several places: a verification is counted
before its result is kept, which may still fail, and the verdict at the end. A `Job` is a pair with what it has
still to count, and in a batch that is `Counting` either one of the things that are due is counted, or a pair
to which nothing is due takes the next step of its verification.

Whatever was counted and is due is what the pairs owe by what they have done (`Balanced`). This is kept by each
step, and so by a whole run (`balanced_of_steps`). What a pair verifies is what it has read (`Job.Faithful`). A
batch that treats its pairs one after the other is one of these runs (`exists_steps_runPairs`).
-/

namespace Lockstep

open Metrics (Update)
open OutputFiles (IsForSome)
open FileTree (Reached)
open scoped List

variable {output : Option String} {settings : Settings} {before files : FileTree} {pair : TracePair}
  {s : Session} {initial : List Update}

/-! ## What a verification counts -/

theorem Action.updatesAfter_change (f : FileTree → Except Error FileTree) (s : Session) :
    updatesAfter (change f s) = s.updates := by
  unfold change
  split
  · rfl
  · rfl

theorem Action.updatesAfter_bind {α β : Type} {action : Action α} {next : α → Action β}
    (h : ∀ s, updatesAfter (action s) = s.updates)
    (hnext : ∀ a s, updatesAfter (next a s) = s.updates) (s : Session) :
    updatesAfter ((action >>= next) s) = s.updates := by
  have hfirst := h s
  cases haction : action s with
  | ok a between =>
    rw [haction] at hfirst
    rw [bind_of_ok haction, hnext]
    exact hfirst
  | error e between =>
    rw [haction] at hfirst
    rw [bind_of_error haction]
    exact hfirst

/-- Keeping a verification counts nothing. -/
theorem Verification.updatesAfter_keep (verification : Verification) (name : String)
    (output : Option String) (s : Session) :
    Action.updatesAfter (verification.keep name output s) = s.updates := by
  cases output with
  | none => rfl
  | some directory =>
    have hwrite : Action.updatesAfter (OutputFiles.write directory name
        verification.reconciliation.entries verification.mismatches s) = s.updates :=
      Action.updatesAfter_bind (Action.updatesAfter_change _) (fun _ =>
        Action.updatesAfter_bind (Action.updatesAfter_change _) fun _ =>
          Action.updatesAfter_bind (Action.updatesAfter_change _) fun _ _ => rfl) s
    rw [keep_some]
    cases hresult : OutputFiles.write directory name verification.reconciliation.entries
        verification.mismatches s with
    | ok outputs s' => exact (hresult ▸ hwrite :)
    | error e s' => exact (hresult ▸ hwrite :)

/-- What is found of the traces of a pair, if both can be read. Files may be written after the golden trace is
read and before the device trace is. -/
def TracePair.verification? (settings : Settings) (files later : FileTree) (pair : TracePair) :
    Option Verification :=
  match TraceFile.readGolden pair.golden files, TraceFile.readDevice pair.device later with
  | .ok golden, .ok trace => some (verify golden trace settings)
  | _, _ => none

theorem TracePair.verification?_of_traces {golden : List GoldenEntry} {trace : DeviceTrace}
    (h : pair.traces files = .ok (golden, trace)) :
    pair.verification? settings files files = some (verify golden trace settings) := by
  obtain ⟨hgolden, htrace⟩ := TracePair.traces_eq_ok.1 h
  simp only [verification?, hgolden, htrace]

theorem TracePair.verification?_of_not_read {e : Error} (h : pair.traces files = .error e) :
    pair.verification? settings files files = none := by
  cases hgolden : TraceFile.readGolden pair.golden files with
  | error e' => simp only [verification?, hgolden]
  | ok golden =>
    cases htrace : TraceFile.readDevice pair.device files with
    | error e' => simp only [verification?, hgolden, htrace]
    | ok trace =>
      rw [TracePair.traces_eq_ok.2 ⟨hgolden, htrace⟩] at h
      cases h

/-- Count a verification that took so many nanoseconds. -/
def Verification.updates (nanoseconds : Nat) (verification : Verification) : List Update :=
  Metrics.ofVerification verification.reconciliation.stats verification.mismatches.length nanoseconds

/-- A pair counts its verification if both traces can be read, also if the result cannot be kept, and its
verdict. -/
theorem updates_of_runPair (output : Option String) (settings : Settings) (pair : TracePair)
    (s : Session) :
    ∃ s', runPair output settings pair s = .ok (BatchEntry.alone output settings s pair) s' ∧
      s'.files = pair.filesAlone output settings s ∧
      s'.updates.toList = s.updates.toList ++
        (pair.verification? settings s.files s.files).toList.flatMap
          (·.updates s.verificationTime) ++
        Metrics.ofVerdict (BatchEntry.alone output settings s pair).verdict := by
  obtain ⟨s', hrun, hfiles, hupdates⟩ := runPair_eq_ok output settings pair s
  refine ⟨s', hrun, hfiles, ?_⟩
  rw [hupdates, Array.toList_appendList]
  congr 1
  cases htraces : pair.traces s.files with
  | error e =>
    rw [verifyPair_of_not_read output settings htraces, TracePair.verification?_of_not_read htraces]
    exact (List.append_nil _).symm
  | ok traces =>
    obtain ⟨golden, trace⟩ := traces
    obtain ⟨told, -, hcounted, hkeep⟩ := verifyPair_of_read output settings htraces
    rw [hkeep, Verification.updatesAfter_keep, hcounted, Array.toList_appendList,
      TracePair.verification?_of_traces htraces]
    simp [Verification.updates]

/-! ## Jobs -/

/-- A trace is still to be read. -/
def Stage.Reading : Stage → Prop
  | .begun | .goldenRead _ => True
  | _ => False

/-- Nothing is changed before both traces are read. -/
theorem Stage.reading_of_next {stage : Stage}
    (h : (stage.next pair output settings files).1.Reading) :
    stage.Reading ∧ (stage.next pair output settings files).2 = files := by
  cases stage with
  | begun =>
    refine ⟨trivial, ?_⟩
    simp only [next]
    split <;> rfl
  | goldenRead golden =>
    simp only [next] at h
    split at h <;> exact h.elim
  | verified v =>
    cases output with
    | none => exact h.elim
    | some directory =>
      simp only [next, changing] at h
      split at h <;> exact h.elim
  | prepared directory v =>
    simp only [next, changing] at h
    split at h <;> exact h.elim
  | halfKept directory v =>
    simp only [next, changing] at h
    split at h <;> exact h.elim
  | done result => exact h.elim

/-- A pair at a stage of its verification. -/
structure Job where
  pair : TracePair
  stage : Stage := .begun
  /-- What was found of the traces, once both were read, and how many nanoseconds that took. -/
  verifications : List (Verification × Nat) := []
  /-- What is still to be counted. -/
  due : List Update := []

namespace Job

/-- The entry of the pair, once it is done. -/
def entries (job : Job) : List BatchEntry :=
  match job.stage with
  | .done result => [{ name := job.pair.name, result }]
  | _ => []

/-- Everything that the pair has to count by what it has done. -/
def owed (job : Job) : List Update :=
  job.verifications.flatMap (fun (v, nanoseconds) => v.updates nanoseconds) ++
    job.entries.flatMap fun entry => Metrics.ofVerdict entry.verdict

/-- The pair goes on to a stage. A verification is counted when it was carried out, and a verdict when the pair
is done. -/
def advance (nanoseconds : Nat) (job : Job) (stage : Stage) : Job :=
  match job.stage, stage with
  | .done _, _ => job
  | _, .verified v => { job with
      stage
      verifications := job.verifications ++ [(v, nanoseconds)]
      due := v.updates nanoseconds }
  | _, .done result => { job with
      stage
      due := Metrics.ofVerdict (BatchEntry.mk job.pair.name result).verdict }
  | _, _ => { job with stage }

/-- The pair takes the next step of its verification. -/
def turn (output : Option String) (settings : Settings) (nanoseconds : Nat) (job : Job)
    (files : FileTree) : Job × FileTree :=
  let (stage, files) := job.stage.next job.pair output settings files
  (job.advance nanoseconds stage, files)

variable {job : Job} {stage : Stage} {nanoseconds : Nat}

theorem advance_pair (nanoseconds : Nat) (job : Job) (stage : Stage) :
    (job.advance nanoseconds stage).pair = job.pair := by
  unfold advance
  split <;> rfl

/-- What a step makes due is what it adds to what is owed. -/
theorem owed_advance (hdue : job.due = []) (nanoseconds : Nat) (stage : Stage) :
    (job.advance nanoseconds stage).owed = job.owed ++ (job.advance nanoseconds stage).due := by
  obtain ⟨pair, old, verifications, due⟩ := job
  obtain rfl : due = [] := hdue
  cases old with
  -- A pair that is done stays so, and nothing becomes due.
  | done result => exact (List.append_nil _).symm
  | _ => cases stage <;> simp [advance, owed, entries]

theorem owed_turn (hdue : job.due = []) (output : Option String) (settings : Settings)
    (nanoseconds : Nat) (files : FileTree) : (job.turn output settings nanoseconds files).1.owed =
      job.owed ++ (job.turn output settings nanoseconds files).1.due :=
  owed_advance hdue nanoseconds _

theorem advance_stage (h : ∀ result, job.stage = .done result → stage = .done result)
    (nanoseconds : Nat) : (job.advance nanoseconds stage).stage = stage := by
  obtain ⟨pair, old, verifications, due⟩ := job
  cases old with
  | done result => exact (h result rfl).symm
  | _ => cases stage <;> rfl

/-- The pair is at the stage of the step that it took. -/
theorem turn_stage (output : Option String) (settings : Settings) (nanoseconds : Nat) (job : Job)
    (files : FileTree) : (job.turn output settings nanoseconds files).1.stage =
      (job.stage.next job.pair output settings files).1 := by
  apply advance_stage
  intro result hdone
  rw [hdone]

/-- What the pair has read and verified are its traces in files that it has seen. -/
def Faithful (settings : Settings) (seen : FileTree → Prop) (job : Job) : Prop :=
  match job.stage with
  | .begun => job.verifications = []
  | .goldenRead golden =>
    (∃ files, seen files ∧ TraceFile.readGolden job.pair.golden files = .ok golden) ∧
      job.verifications = []
  | _ => ∃ files later, seen files ∧ seen later ∧
    job.verifications.map Prod.fst = (job.pair.verification? settings files later).toList

variable {seen : FileTree → Prop}

theorem Faithful.mono {more : FileTree → Prop} (h : job.Faithful settings seen)
    (hmore : ∀ files, seen files → more files) : job.Faithful settings more := by
  obtain ⟨pair, old, verifications, due⟩ := job
  cases old with
  | begun => exact h
  | goldenRead golden =>
    obtain ⟨⟨files, hseen, hgolden⟩, hnone⟩ := h
    exact ⟨⟨files, hmore files hseen, hgolden⟩, hnone⟩
  | _ =>
    obtain ⟨files, later, hseen, hlater, hverified⟩ := h
    exact ⟨files, later, hmore files hseen, hmore later hlater, hverified⟩

/-- A step keeps to the traces, for it reads them in the files as they are. -/
theorem Faithful.turn (h : job.Faithful settings seen) (hseen : job.stage.Reading → seen files) :
    (job.turn output settings nanoseconds files).1.Faithful settings seen := by
  obtain ⟨pair, old, verifications, due⟩ := job
  cases old with
  | begun =>
    obtain rfl : verifications = [] := h
    cases hgolden : TraceFile.readGolden pair.golden files with
    | ok golden =>
      simp only [Job.turn, Stage.next, hgolden]
      exact ⟨⟨files, hseen trivial, hgolden⟩, rfl⟩
    | error e =>
      have hnone : pair.verification? settings files files = none := by
        simp only [TracePair.verification?, hgolden]
      simp only [Job.turn, Stage.next, hgolden]
      exact ⟨files, files, hseen trivial, hseen trivial, congrArg Option.toList hnone.symm⟩
  | goldenRead golden =>
    obtain ⟨⟨earlier, hearlier, hgolden⟩, rfl⟩ :
      (∃ files, seen files ∧ TraceFile.readGolden pair.golden files = .ok golden) ∧
        verifications = [] := h
    cases htrace : TraceFile.readDevice pair.device files with
    | ok trace =>
      have hsome : pair.verification? settings earlier files = some (verify golden trace settings) := by
        simp only [TracePair.verification?, hgolden, htrace]
      simp only [Job.turn, Stage.next, htrace]
      exact ⟨earlier, files, hearlier, hseen trivial, congrArg Option.toList hsome.symm⟩
    | error e =>
      have hnone : pair.verification? settings earlier files = none := by
        simp only [TracePair.verification?, hgolden, htrace]
      simp only [Job.turn, Stage.next, htrace]
      exact ⟨earlier, files, hearlier, hseen trivial, congrArg Option.toList hnone.symm⟩
  -- From here on nothing is read, and no verification is added.
  | verified v =>
    cases output with
    | none => exact h
    | some directory =>
      simp only [Job.turn, Stage.next, Stage.changing]
      split <;> exact h
  | prepared directory v =>
    simp only [Job.turn, Stage.next, Stage.changing]
    split <;> exact h
  | halfKept directory v =>
    simp only [Job.turn, Stage.next, Stage.changing]
    split <;> exact h
  | done result => exact h

end Job

/-! ## Batches that count -/

/-- A batch in progress: the pairs, the files that they share, and what was counted so far. -/
structure Counting where
  jobs : List Job
  files : FileTree
  updates : List Update

namespace Counting

/-- What is counted before the first pair is verified. -/
def preface (pairing : Pairing) (workers : Nat) : List Update :=
  Metrics.ofWorkers workers ++ pairing.skipped.flatMap fun _ => Metrics.ofVerdict .skip

def start (pairing : Pairing) (workers : Nat) (files : FileTree) : Counting where
  jobs := pairing.pairs.map fun pair => { pair }
  files
  updates := preface pairing workers

/-- A step of one of the pairs, however long its verification takes. -/
inductive Step (output : Option String) (settings : Settings) : Counting → Counting → Prop
  | count (front back : List Job) (job : Job) (update : Update) (due : List Update)
      (files : FileTree) (updates : List Update) :
    Step output settings
      { jobs := front ++ { job with due := update :: due } :: back, files, updates }
      { jobs := front ++ { job with due } :: back, files, updates := updates ++ [update] }
  | turn (front back : List Job) (job : Job) (nanoseconds : Nat) (files : FileTree)
      (updates : List Update) (hdue : job.due = []) :
    Step output settings
      { jobs := front ++ job :: back, files, updates }
      { jobs := front ++ (job.turn output settings nanoseconds files).1 :: back
        files := (job.turn output settings nanoseconds files).2
        updates }

/-- Steps of the pairs, in any order and any number of them. -/
abbrev Steps (output : Option String) (settings : Settings) : Counting → Counting → Prop :=
  Relation.ReflTransGen (Step output settings)

/-- All pairs are done, and everything is counted. -/
def Finished (counting : Counting) : Prop :=
  ∀ job ∈ counting.jobs, job.due = [] ∧ ∃ result, job.stage = .done result

/-- The verifications that were carried out. -/
def verifications (counting : Counting) : List Verification :=
  (counting.jobs.flatMap Job.verifications).map Prod.fst

/-- The report on the batch. -/
def report (pairing : Pairing) (counting : Counting) : BatchReport where
  entries := (counting.jobs.flatMap Job.entries).mergeSort fun a b => decide (a.name ≤ b.name)
  skipped := pairing.skipped

variable {counting next : Counting}

/-- What was counted and what is due is what was counted before, and what the pairs owe. -/
def Balanced (initial : List Update) (counting : Counting) : Prop :=
  (counting.updates ++ counting.jobs.flatMap Job.due).Perm
    (initial ++ counting.jobs.flatMap Job.owed)

theorem balanced_start (pairing : Pairing) (workers : Nat) (files : FileTree) :
    (start pairing workers files).Balanced (preface pairing workers) := by
  have hnothing (f : Job → List Update) (hf : ∀ pair, f { pair } = []) :
      (start pairing workers files).jobs.flatMap f = [] := by
    simp [start, List.flatMap_map, hf]
  unfold Balanced
  rw [hnothing Job.due fun _ => rfl, hnothing Job.owed fun _ => rfl]
  exact .refl _

/-- The step lemma: what is counted was due, and what becomes due is owed. -/
theorem Balanced.step (h : counting.Balanced initial) (hstep : Step output settings counting next) :
    next.Balanced initial := by
  unfold Balanced at h ⊢
  cases hstep with
  | count front back job update due files updates =>
    simp only [List.flatMap_append, List.flatMap_cons, List.append_assoc, List.cons_append] at h ⊢
    have hfront : (update :: (front.flatMap Job.due ++ (due ++ back.flatMap Job.due))).Perm
        (front.flatMap Job.due ++ update :: (due ++ back.flatMap Job.due)) :=
      List.perm_middle.symm
    exact (hfront.append_left updates).trans h
  | turn front back job nanoseconds files updates hdue =>
    simp only [List.flatMap_append, List.flatMap_cons, List.append_assoc, Job.owed_turn hdue, hdue,
      List.nil_append] at h ⊢
    generalize (job.turn output settings nanoseconds files).1.due = due
    -- On both sides, what is due can be taken to the front.
    have hfront (xs ys zs : List Update) : (xs ++ (ys ++ (due ++ zs))).Perm (due ++ (xs ++ (ys ++ zs))) :=
      ((List.perm_append_comm_assoc ys due zs).append_left xs).trans
        (List.perm_append_comm_assoc xs due _)
    calc updates ++ (front.flatMap Job.due ++ (due ++ back.flatMap Job.due))
      _ ~ due ++ (updates ++ (front.flatMap Job.due ++ back.flatMap Job.due)) := hfront _ _ _
      _ ~ due ++ (initial ++ (front.flatMap Job.owed ++ (job.owed ++ back.flatMap Job.owed))) :=
        h.append_left due
      _ ~ initial ++ (due ++ (front.flatMap Job.owed ++ (job.owed ++ back.flatMap Job.owed))) :=
        List.perm_append_comm_assoc due initial _
      _ ~ initial ++ (front.flatMap Job.owed ++ (job.owed ++ (due ++ back.flatMap Job.owed))) :=
        ((hfront _ _ _).symm).append_left initial

theorem balanced_of_steps {pairing : Pairing} {workers : Nat}
    (h : Steps output settings (start pairing workers files) counting) :
    counting.Balanced (preface pairing workers) := by
  induction h with
  | refl => exact balanced_start pairing workers files
  | tail _ hstep ih => exact ih.step hstep

/-- In the end, the pairs have counted what they owe. -/
theorem Balanced.perm (h : counting.Balanced initial) (hfinished : counting.Finished) :
    counting.updates.Perm (initial ++ counting.jobs.flatMap Job.owed) := by
  have hnothing : counting.jobs.flatMap Job.due = [] :=
    List.flatMap_eq_nil_iff.2 fun job hjob => (hfinished job hjob).1
  unfold Balanced at h
  rwa [hnothing, List.append_nil] at h

/-! ## One pair after the other -/

/-- Everything that is due to a pair is counted. -/
theorem steps_count (front back : List Job) (job : Job) (due : List Update) (files : FileTree)
    (updates : List Update) :
    Steps output settings
      { jobs := front ++ { job with due } :: back, files, updates }
      { jobs := front ++ { job with due := [] } :: back, files, updates := updates ++ due } := by
  induction due generalizing updates with
  | nil => rw [List.append_nil]
  | cons update due ih =>
    have hrest := ih (updates ++ [update])
    rw [List.append_assoc, List.singleton_append] at hrest
    exact .head (.count front back job update due files updates) hrest

/-- A pair takes a step and counts what it makes due. -/
theorem steps_turn {job : Job} (hdue : job.due = []) (front back : List Job) (nanoseconds : Nat)
    (files : FileTree) (updates : List Update) :
    Steps output settings
      { jobs := front ++ job :: back, files, updates }
      { jobs := front ++ { (job.turn output settings nanoseconds files).1 with due := [] } :: back
        files := (job.turn output settings nanoseconds files).2
        updates := updates ++ (job.turn output settings nanoseconds files).1.due } :=
  .head (.turn front back job nanoseconds files updates hdue) (steps_count ..)

end Counting

/-- A pair that takes steps and counts what they make due, with nothing in between. -/
def Job.solo (output : Option String) (settings : Settings) (nanoseconds : Nat) (pair : TracePair)
    (files : FileTree) : Nat → Job × FileTree
  | 0 => ({ pair }, files)
  | n + 1 =>
    let (job, files) := solo output settings nanoseconds pair files n
    let (job, files) := job.turn output settings nanoseconds files
    ({ job with due := [] }, files)

namespace Job

variable {nanoseconds n : Nat}

theorem solo_pair : (solo output settings nanoseconds pair files n).1.pair = pair := by
  induction n with
  | zero => rfl
  | succ n ih => exact (advance_pair ..).trans ih

theorem solo_due : (solo output settings nanoseconds pair files n).1.due = [] := by
  cases n <;> rfl

/-- The steps are those of the verification. -/
theorem solo_stage : ((solo output settings nanoseconds pair files n).1.stage,
    (solo output settings nanoseconds pair files n).2) = Stage.solo pair output settings files n := by
  induction n with
  | zero => rfl
  | succ n ih =>
    have hpair : (solo output settings nanoseconds pair files n).1.pair = pair := solo_pair
    rw [Stage.solo, ← ih]
    apply Prod.ext
    · exact (turn_stage ..).trans (by rw [hpair])
    · simp only [solo, turn, hpair]

theorem steps_solo (front back : List Job) (pair : TracePair) (files : FileTree)
    (updates : List Update) (nanoseconds n : Nat) :
    Counting.Steps output settings
      { jobs := front ++ { pair } :: back, files, updates }
      { jobs := front ++ (solo output settings nanoseconds pair files n).1 :: back
        files := (solo output settings nanoseconds pair files n).2
        updates := updates ++ (solo output settings nanoseconds pair files n).1.owed } := by
  induction n with
  | zero =>
    change Counting.Steps output settings _ { jobs := _, files, updates := updates ++ [] }
    rw [List.append_nil]
    exact .refl
  | succ n ih =>
    have hdue : (solo output settings nanoseconds pair files n).1.due = [] := solo_due
    have hturn : Counting.Steps output settings _ _ := Counting.steps_turn hdue front back nanoseconds
      (solo output settings nanoseconds pair files n).2
      (updates ++ (solo output settings nanoseconds pair files n).1.owed)
    rw [List.append_assoc, ← owed_turn hdue] at hturn
    exact ih.trans hturn

theorem solo_files (h : (solo output settings nanoseconds pair files n).1.stage.Reading) :
    (solo output settings nanoseconds pair files n).2 = files := by
  induction n with
  | zero => rfl
  | succ n ih =>
    simp only [solo, turn_stage] at h
    obtain ⟨hreading, hfiles⟩ := Stage.reading_of_next h
    exact hfiles.trans (ih hreading)

/-- A pair that nothing comes between finds its traces as they are. -/
theorem solo_faithful :
    (solo output settings nanoseconds pair files n).1.Faithful settings (· = files) := by
  induction n with
  | zero => rfl
  | succ n ih => exact ih.turn solo_files

theorem solo_durations :
    ∀ v ∈ (solo output settings nanoseconds pair files n).1.verifications, v.2 = nanoseconds := by
  induction n with
  | zero => exact nofun
  | succ n ih =>
    simp only [solo, turn, advance]
    split
    · exact ih
    · intro v hv
      rcases List.mem_append.1 hv with hv | hv
      · exact ih v hv
      · rw [List.mem_singleton.1 hv]
    · exact ih
    · exact ih

/-- A pair after its whole verification, with nothing in between. -/
def ended (output : Option String) (settings : Settings) (s : Session) (pair : TracePair) :
    Job × FileTree :=
  solo output settings s.verificationTime pair s.files Stage.length

theorem ended_eq (output : Option String) (settings : Settings) (s : Session) (pair : TracePair) :
    (ended output settings s pair).1.stage =
        .done (BatchEntry.alone output settings s pair).result ∧
      (ended output settings s pair).2 = pair.filesAlone output settings s :=
  Prod.mk.inj (solo_stage.trans (Stage.solo_verifyPair pair output settings s))

theorem ended_entries (output : Option String) (settings : Settings) (s : Session)
    (pair : TracePair) : (ended output settings s pair).1.entries =
      [BatchEntry.alone output settings s pair] := by
  have hpair : (ended output settings s pair).1.pair = pair := solo_pair
  rw [entries, (ended_eq output settings s pair).1, hpair]
  rfl

/-- In the end, the pair owes its verification and the verdict. -/
theorem ended_owed (output : Option String) (settings : Settings) (s : Session) (pair : TracePair) :
    (ended output settings s pair).1.owed =
      (pair.verification? settings s.files s.files).toList.flatMap (·.updates s.verificationTime) ++
        Metrics.ofVerdict (BatchEntry.alone output settings s pair).verdict := by
  have hpair : (ended output settings s pair).1.pair = pair := solo_pair
  have hstage := (ended_eq output settings s pair).1
  have hfaithful : Faithful settings (· = s.files) (ended output settings s pair).1 := solo_faithful
  have hdurations : ∀ v ∈ (ended output settings s pair).1.verifications, v.2 = s.verificationTime :=
    solo_durations
  rw [owed, ended_entries, List.flatMap_singleton]
  generalize (ended output settings s pair).1 = job at hpair hstage hfaithful hdurations ⊢
  obtain ⟨other, stage, verifications, due⟩ := job
  obtain rfl : other = pair := hpair
  obtain rfl : stage = .done _ := hstage
  obtain ⟨_, _, rfl, rfl, hverified⟩ := hfaithful
  -- There is one verification at most, and it took as long as the session says.
  congr 1
  rw [← hverified, List.flatMap_map]
  exact List.flatMap_congr fun v hv => congrArg (Verification.updates · v.1) (hdurations v hv)

end Job

namespace Counting

/-- The verification of one pair is a way in which it can take its steps and count. -/
theorem exists_steps_runPair (output : Option String) (settings : Settings) (front back : List Job)
    (pair : TracePair) (s : Session) :
    ∃ (job : Job) (entry : BatchEntry) (s' : Session),
      runPair output settings pair s = .ok entry s' ∧ job.entries = [entry] ∧
      (job.due = [] ∧ ∃ result, job.stage = .done result) ∧
      Steps output settings
        { jobs := front ++ { pair } :: back, files := s.files, updates := s.updates.toList }
        { jobs := front ++ job :: back, files := s'.files, updates := s'.updates.toList } := by
  obtain ⟨s', hrun, hfiles, hupdates⟩ := updates_of_runPair output settings pair s
  obtain ⟨hstage, hended⟩ := Job.ended_eq output settings s pair
  have hsteps : Steps output settings _
      { jobs := front ++ (Job.ended output settings s pair).1 :: back
        files := (Job.ended output settings s pair).2
        updates := s.updates.toList ++ (Job.ended output settings s pair).1.owed } :=
    Job.steps_solo front back pair s.files s.updates.toList s.verificationTime Stage.length
  rw [hended, ← hfiles, Job.ended_owed, ← List.append_assoc, ← hupdates] at hsteps
  exact ⟨_, _, s', hrun, Job.ended_entries output settings s pair,
    ⟨Job.solo_due, _, hstage⟩, hsteps⟩

/-- A batch that treats its pairs one after the other. -/
theorem exists_steps_mapM (output : Option String) (settings : Settings) (front : List Job)
    (pairs : List TracePair) (s : Session) :
    ∃ (ended : List Job) (s' : Session),
      pairs.mapM (runPair output settings) s = .ok (ended.flatMap Job.entries) s' ∧
      (∀ job ∈ ended, job.due = [] ∧ ∃ result, job.stage = .done result) ∧
      Steps output settings
        { jobs := front ++ pairs.map fun pair => { pair }
          files := s.files
          updates := s.updates.toList }
        { jobs := front ++ ended, files := s'.files, updates := s'.updates.toList } := by
  induction pairs generalizing front s with
  | nil => exact ⟨[], s, rfl, nofun, .refl⟩
  | cons pair rest ih =>
    obtain ⟨job, entry, between, hrun, hentries, hdone, hsteps⟩ := exists_steps_runPair output
      settings front (rest.map fun pair => { pair }) pair s
    -- A pair that is done stands among those in front of the others.
    obtain ⟨ended, s', hruns, hended, hlater⟩ := ih (front ++ [job]) between
    rw [List.append_assoc, List.append_assoc] at hlater
    refine ⟨job :: ended, s', ?_, List.forall_mem_cons.2 ⟨hdone, hended⟩, hsteps.trans hlater⟩
    rw [List.mapM_cons, List.flatMap_cons, hentries]
    exact Action.bind_eq_ok.2 ⟨_, between, hrun, Action.bind_eq_ok.2 ⟨_, s', hruns, rfl⟩⟩

/-- A batch is one of the ways in which its pairs can count while they take turns. -/
theorem exists_steps_runPairs {pool : WorkerPool} {workers : Nat} (hpool : pool.Starts workers)
    (hfresh : s.updates = #[]) (pairing : Pairing) (output : Option String) (settings : Settings) :
    ∃ (counting : Counting) (s' : Session),
      runPairs pool pairing output workers settings s = .ok (counting.report pairing) s' ∧
      Steps output settings (start pairing workers s.files) counting ∧ counting.Finished ∧
      counting.files = s'.files ∧ counting.updates = s'.updates.toList := by
  obtain ⟨ended, s', hruns, hended, hsteps⟩ :=
    exists_steps_mapM output settings [] pairing.pairs (s.started pairing workers)
  have hpreface : (s.started pairing workers).updates.toList = preface pairing workers := by
    simp [Session.started, hfresh, preface]
  rw [hpreface] at hsteps
  exact ⟨_, s', runPairs_of_mapM hpool hruns, hsteps, hended, rfl, rfl⟩

end Counting

end Lockstep
