import Lockstep.Reconciliation
import Mathlib.Data.List.TakeWhile

/-!
# Runs of the reconciliation

`Reconciliation.walk` is a function with many branches: nine categories of instructions, a splice that
may have to be undone, three streams that can run out. Here it is told once more as a relation,
`Run`, with one rule for each thing that a golden entry can meet:

* the golden trace is **finished**;
* the entry is **served**: its fetch is found (`Aligns`) and takes from the streams what its
  instruction word demands (`Serves`, five rules);
* the run is **stopped** because a stream has run out (`Stops`, one rule for each stream).

`run_reconcile` says that every reconciliation is such a run, and `reconcile_eq_of_run` that there is no
other: to know what a changed trace reconciles to, it is enough to show a run of it. Whatever is proved of
reconciliations is proved by induction on `Run`; `step` and `walk` are opened in this module only.
-/

namespace Lockstep

/-! ## What a fetch demands -/

/-- What the instruction word of an aligned fetch demands from the streams. -/
inductive Demand where
  /-- A register commit. Where it `mayReorder`, it need not be the next one. -/
  | commit (mayReorder : Bool)
  /-- A memory access of the given width. -/
  | access (width : StoreWidth)
  | nothing
  /-- The word is not recognized. -/
  | unknown
  deriving DecidableEq, Repr

/-- The demand of an instruction word. -/
def Instruction.demand (word : Instruction) : Demand :=
  match word.category with
  | .load | .registerOp => if word.targetsZero then .nothing else .commit true
  | .jump => if word.targetsZero then .nothing else .commit false
  | .store width => .access width
  | .branch | .fence => .nothing
  | .unknown => .unknown

namespace Instruction

variable {word : Instruction}

theorem demand_eq_commit_iff {mayReorder : Bool} :
    word.demand = .commit mayReorder ↔
      word.targetsZero = false ∧ mayReorder = true ∧
          (word.category = .load ∨ word.category = .registerOp) ∨
        word.targetsZero = false ∧ mayReorder = false ∧ word.category = .jump := by
  unfold demand
  cases word.category <;> cases word.targetsZero <;> cases mayReorder <;> simp

theorem demand_eq_access_iff {width : StoreWidth} :
    word.demand = .access width ↔ word.category = .store width := by
  unfold demand
  cases word.category <;> cases word.targetsZero <;> simp

theorem demand_eq_nothing_iff :
    word.demand = .nothing ↔
      word.targetsZero = true ∧
          (word.category = .load ∨ word.category = .registerOp ∨ word.category = .jump) ∨
        word.category = .branch ∨ word.category = .fence := by
  unfold demand
  cases word.category <;> cases word.targetsZero <;> simp

theorem demand_eq_unknown_iff : word.demand = .unknown ↔ word.category = .unknown := by
  unfold demand
  cases word.category <;> cases word.targetsZero <;> simp

end Instruction

/-- The register file after a golden entry. -/
def RegisterFile.follow (file : RegisterFile) (golden : GoldenEntry) : RegisterFile :=
  (golden.registerWrite?.map file.write).getD file

theorem RegisterFile.follow_of_none {file : RegisterFile} {golden : GoldenEntry}
    (h : golden.registerWrite? = none) : file.follow golden = file := by
  rw [follow, h, Option.map_none, Option.getD_none]

theorem RegisterFile.follow_of_some {file : RegisterFile} {golden : GoldenEntry}
    {write : RegisterWrite} (h : golden.registerWrite? = some write) :
    file.follow golden = file.write write := by
  rw [follow, h, Option.map_some, Option.getD_some]

/-- The effect that a register commit shows. -/
def Effect.ofWrite (write : RegisterWrite) : Effect :=
  { targetReg := some write.reg, regVal := some write.value }

/-- The effect that a memory access shows. -/
def Effect.ofStore (address value : UInt32) : Effect :=
  { memAddr := some address, memVal := some value }

namespace Reconciliation

theorem takeEffect_of_commit {window : Nat} {golden : GoldenEntry} {fetch : Fetch} {p : Progress}
    {mayReorder : Bool} (h : fetch.instr.demand = .commit mayReorder) :
    takeEffect window golden fetch p = takeCommit window mayReorder golden p := by
  unfold takeEffect
  rcases Instruction.demand_eq_commit_iff.1 h with ⟨hz, rfl, hc | hc⟩ | ⟨hz, rfl, hc⟩ <;>
    simp [hz, hc]

theorem takeEffect_of_access {window : Nat} {golden : GoldenEntry} {fetch : Fetch} {p : Progress}
    {width : StoreWidth} (h : fetch.instr.demand = .access width) :
    takeEffect window golden fetch p = takeAccess width golden p := by
  unfold takeEffect
  rw [Instruction.demand_eq_access_iff.1 h]

theorem takeEffect_of_nothing {window : Nat} {golden : GoldenEntry} {fetch : Fetch} {p : Progress}
    (h : fetch.instr.demand = .nothing) :
    takeEffect window golden fetch p = .ok { progress := p } := by
  unfold takeEffect
  rcases Instruction.demand_eq_nothing_iff.1 h with ⟨hz, hc | hc | hc⟩ | hc | hc <;> simp [*]

theorem takeEffect_of_unknown {window : Nat} {golden : GoldenEntry} {fetch : Fetch} {p : Progress}
    (h : fetch.instr.demand = .unknown) :
    ∃ events, takeEffect window golden fetch p =
      .ok { progress := p, isUnknown := true, events := events } := by
  unfold takeEffect
  rw [Instruction.demand_eq_unknown_iff.1 h]
  exact ⟨_, rfl⟩

/-! ## Taking a commit -/

/-- The write that the golden entry lets be brought forward. -/
def expectedWrite? (mayReorder : Bool) (golden : GoldenEntry) : Option RegisterWrite :=
  if mayReorder then golden.registerWrite? else none

/-- The pending commits once an expected write was brought forward. -/
def promoted (window : Nat) (expected : Option RegisterWrite) (pending : List RegisterWrite) :
    List RegisterWrite :=
  match expected with
  | none => pending
  | some write => (Lookahead.promote write window pending).2

theorem bringForward_snd (window : Nat) (expected : Option RegisterWrite)
    (commits : Feed RegisterWrite) :
    (bringForward window expected commits).2 =
      commits.withPending (promoted window expected commits.pending) := by
  cases expected with
  | none => rfl
  | some write =>
      simp only [bringForward, promoted, Lookahead.promote]
      cases Lookahead.search write window commits.pending with
      | inPlace => rfl
      | found offset => rfl
      | notFound => rfl

theorem promoted_eq_nil_iff {window : Nat} {expected : Option RegisterWrite}
    {pending : List RegisterWrite} :
    promoted window expected pending = [] ↔ pending = [] := by
  have hlen : (promoted window expected pending).length = pending.length := by
    cases expected with
    | none => rfl
    | some write => exact Lookahead.length_promote write window pending
  rw [← List.length_eq_zero_iff, hlen, List.length_eq_zero_iff]

/-- A write that stands in front already is not displaced. -/
theorem bringForward_of_front (window : Nat) (mayReorder : Bool) {golden : GoldenEntry}
    {write : RegisterWrite} (hw : golden.registerWrite? = some write)
    {commits : Feed RegisterWrite} {later : List RegisterWrite}
    (hfront : commits.pending = write :: later) :
    bringForward window (expectedWrite? mayReorder golden) commits = (none, commits) := by
  cases mayReorder with
  | false => rfl
  | true =>
      simp only [expectedWrite?, hw, if_true, bringForward, Lookahead.promote, hfront,
        Lookahead.search_cons_self]
      by_cases hzero : window = 0
      · simp [hzero]
      · simp [hzero]

theorem promoted_of_front (window : Nat) (mayReorder : Bool) {golden : GoldenEntry}
    {write : RegisterWrite} (hw : golden.registerWrite? = some write)
    (pending : List RegisterWrite) :
    promoted window (expectedWrite? mayReorder golden) (write :: pending) = write :: pending := by
  have hpending : (Feed.ofList (write :: pending)).pending = write :: pending := rfl
  have hfront := bringForward_of_front window mayReorder hw hpending
  have hsnd := bringForward_snd window (expectedWrite? mayReorder golden) (.ofList (write :: pending))
  rw [hfront] at hsnd
  exact (congrArg Feed.pending hsnd).symm

theorem takeCommit_of_front {window : Nat} {mayReorder : Bool} {golden : GoldenEntry}
    {p : Progress} {commit : RegisterWrite} {later : List RegisterWrite}
    (h : (bringForward window (expectedWrite? mayReorder golden) p.commits).2 =
      { p.commits with pending := commit :: later }) :
    ∃ events, takeCommit window mayReorder golden p =
      .ok {
        effect := .ofWrite commit
        progress := { p with
          commits := { taken := p.commits.taken + 1, pending := later }
          shadow := p.shadow.follow golden }
        tookCommit := true
        reordered := (bringForward window (expectedWrite? mayReorder golden) p.commits).1.isSome
        events := events } := by
  unfold takeCommit
  unfold expectedWrite? at h ⊢
  simp only [h]
  exact ⟨_, rfl⟩

theorem takeCommit_of_empty {window : Nat} {mayReorder : Bool} {golden : GoldenEntry}
    {p : Progress} (h : p.commits.pending = []) :
    takeCommit window mayReorder golden p = .error .commits := by
  unfold takeCommit
  simp only [bringForward_snd, Feed.next?, Feed.withPending, promoted_eq_nil_iff.2 h]

theorem takeAccess_of_front {width : StoreWidth} {golden : GoldenEntry} {p : Progress}
    {access : MemoryAccess} {later : List MemoryAccess} (h : p.accesses.pending = access :: later) :
    takeAccess width golden p =
      .ok {
        effect := .ofStore access.address
          (width.narrow access.raw (golden.memAddr.getD access.address))
        progress := { p with
          accesses := { taken := p.accesses.taken + 1, pending := later } } } := by
  unfold takeAccess
  simp only [Feed.next?, h]
  rfl

theorem takeAccess_of_empty {width : StoreWidth} {golden : GoldenEntry} {p : Progress}
    (h : p.accesses.pending = []) : takeAccess width golden p = .error .accesses := by
  unfold takeAccess
  simp only [Feed.next?, h]

theorem repeatedWrite?_eq_some_iff {shadow : RegisterFile} {golden : GoldenEntry}
    {write : RegisterWrite} :
    repeatedWrite? shadow golden = some write ↔
      golden.registerWrite? = some write ∧ shadow.repeats write = true :=
  Option.filter_eq_some_iff

/-- A repeated write does not change the register file. -/
theorem follow_of_repeated {shadow : RegisterFile} {golden : GoldenEntry} {write : RegisterWrite}
    (h : repeatedWrite? shadow golden = some write) : shadow.follow golden = shadow := by
  obtain ⟨hw, hr⟩ := repeatedWrite?_eq_some_iff.1 h
  rw [RegisterFile.follow_of_some hw]
  exact RegisterFile.write_of_repeats hr

/-! ## One golden entry -/

/-- `fetch` is the first pending fetch from the awaited program counter; it comes after `skipped`,
and `later` comes after it. -/
structure Aligns (golden : GoldenEntry) (pending skipped : List Fetch) (fetch : Fetch)
    (later : List Fetch) : Prop where
  pending_eq : pending = skipped ++ fetch :: later
  skipped_ne : ∀ f ∈ skipped, f.pc ≠ golden.pc
  pc_eq : fetch.pc = golden.pc

theorem exists_aligns {golden : GoldenEntry} {pending : List Fetch}
    (h : ¬ ∀ f ∈ pending, f.pc ≠ golden.pc) :
    ∃ skipped fetch later, Aligns golden pending skipped fetch later := by
  induction pending with
  | nil => exact absurd nofun h
  | cons first rest ih =>
      by_cases hpc : first.pc = golden.pc
      · exact ⟨[], first, rest, rfl, nofun, hpc⟩
      · obtain ⟨skipped, fetch, later, ha⟩ := ih fun hall => h fun f hf => by
          rcases List.mem_cons.1 hf with rfl | hf
          · exact hpc
          · exact hall f hf
        refine ⟨first :: skipped, fetch, later, ?_, ?_, ha.pc_eq⟩
        · rw [ha.pending_eq, List.cons_append]
        · intro f hf
          rcases List.mem_cons.1 hf with rfl | hf
          · exact hpc
          · exact ha.skipped_ne f hf

theorem takeWhile_of_aligns {golden : GoldenEntry} {fetches : Feed Fetch}
    {skipped later : List Fetch} {fetch : Fetch}
    (h : Aligns golden fetches.pending skipped fetch later) :
    fetches.takeWhile (·.pc != golden.pc) =
      (skipped, { taken := fetches.taken + skipped.length, pending := fetch :: later }) := by
  have hall : ∀ f ∈ skipped, (f.pc != golden.pc) = true :=
    fun f hf => bne_iff_ne.2 (h.skipped_ne f hf)
  have hstop : (fetch.pc != golden.pc) = false := by simp [h.pc_eq]
  unfold Feed.takeWhile
  rw [h.pending_eq, List.takeWhile_append_of_pos hall, List.dropWhile_append_of_pos hall,
    List.takeWhile_cons, List.dropWhile_cons, hstop]
  simp

theorem takeWhile_of_absent {golden : GoldenEntry} {fetches : Feed Fetch}
    (h : ∀ f ∈ fetches.pending, f.pc ≠ golden.pc) :
    fetches.takeWhile (·.pc != golden.pc) =
      (fetches.pending, { taken := fetches.taken + fetches.pending.length, pending := [] }) := by
  have hall : ∀ f ∈ fetches.pending, (f.pc != golden.pc) = true :=
    fun f hf => bne_iff_ne.2 (h f hf)
  unfold Feed.takeWhile
  rw [List.takeWhile_eq_self_iff.2 hall, List.dropWhile_eq_nil_iff.2 hall]

/-- What an aligned fetch takes from the commits and accesses: the entry that is emitted for it, what
is counted, and the state afterwards. The fetches of the state are left as they are. -/
inductive Serves (settings : Settings) (golden : GoldenEntry) (fetch : Fetch) (p : Progress) :
    ReconciledEntry → Stats → Progress → Prop where
  /-- The golden write repeats, so its commit is supplied. No pending commit is touched. -/
  | supplied {mayReorder : Bool} {write : RegisterWrite}
      (demand : fetch.instr.demand = .commit mayReorder)
      (repeated : repeatedWrite? p.shadow golden = some write) :
      Serves settings golden fetch p
        { toFetch := fetch, toEffect := .ofWrite write, speculativeCommit := true }
        { synthesizedCommits := 1 }
        { p with commits := { p.commits with taken := p.commits.taken + 1 } }
  /-- The commit in front is taken, after the golden write was brought forward. -/
  | observed {mayReorder : Bool} {commit : RegisterWrite} {later : List RegisterWrite}
      (demand : fetch.instr.demand = .commit mayReorder)
      (fresh : repeatedWrite? p.shadow golden = none)
      (front : promoted settings.reorderWindow (expectedWrite? mayReorder golden) p.commits.pending =
        commit :: later) :
      Serves settings golden fetch p
        { toFetch := fetch, toEffect := .ofWrite commit }
        { reorderedCommits := if (bringForward settings.reorderWindow
            (expectedWrite? mayReorder golden) p.commits).1.isSome then 1 else 0 }
        { p with
          commits := { taken := p.commits.taken + 1, pending := later }
          shadow := p.shadow.follow golden }
  /-- The next access is taken. -/
  | stored {width : StoreWidth} {access : MemoryAccess} {later : List MemoryAccess}
      (demand : fetch.instr.demand = .access width)
      (front : p.accesses.pending = access :: later) :
      Serves settings golden fetch p
        { toFetch := fetch
          toEffect := .ofStore access.address
            (width.narrow access.raw (golden.memAddr.getD access.address)) }
        {}
        { p with accesses := { taken := p.accesses.taken + 1, pending := later } }
  /-- Nothing is taken. -/
  | silent (demand : fetch.instr.demand = .nothing) :
      Serves settings golden fetch p (.ofFetch fetch) {} p
  /-- The fetch is emitted as a speculative one. -/
  | unknown (demand : fetch.instr.demand = .unknown) :
      Serves settings golden fetch p (speculative fetch) { unknownInstructions := 1 } p

theorem Serves.toFetch_eq {settings : Settings} {golden : GoldenEntry} {fetch : Fetch}
    {p q : Progress} {entry : ReconciledEntry} {stats : Stats}
    (h : Serves settings golden fetch p entry stats q) : entry.toFetch = fetch := by
  cases h with
  | supplied | observed | stored | silent | unknown => rfl

/-- A stream has run out: which one, the fetches skipped before that, and those still pending. -/
inductive Stops (golden : GoldenEntry) (p : Progress) :
    Stream → (skipped later : List Fetch) → Prop where
  | fetches (h : ∀ f ∈ p.fetches.pending, f.pc ≠ golden.pc) :
      Stops golden p .fetches p.fetches.pending []
  | commits {skipped later : List Fetch} {fetch : Fetch} {mayReorder : Bool}
      (aligns : Aligns golden p.fetches.pending skipped fetch later)
      (demand : fetch.instr.demand = .commit mayReorder)
      (fresh : repeatedWrite? p.shadow golden = none)
      (empty : p.commits.pending = []) :
      Stops golden p .commits skipped (fetch :: later)
  | accesses {skipped later : List Fetch} {fetch : Fetch} {width : StoreWidth}
      (aligns : Aligns golden p.fetches.pending skipped fetch later)
      (demand : fetch.instr.demand = .access width)
      (empty : p.accesses.pending = []) :
      Stops golden p .accesses skipped (fetch :: later)

theorem Stops.skipped_ne {golden : GoldenEntry} {p : Progress} {stream : Stream}
    {skipped later : List Fetch} (h : Stops golden p stream skipped later) :
    ∀ f ∈ skipped, f.pc ≠ golden.pc := by
  cases h with
  | fetches habsent => exact habsent
  | commits aligns | accesses aligns => exact aligns.skipped_ne

/-- Every golden entry meets one of the two. -/
theorem stops_or_serves (settings : Settings) (golden : GoldenEntry) (p : Progress) :
    (∃ stream skipped later, Stops golden p stream skipped later) ∨
      ∃ skipped fetch later entry stats q,
        Aligns golden p.fetches.pending skipped fetch later ∧
          Serves settings golden fetch p entry stats q := by
  by_cases habsent : ∀ f ∈ p.fetches.pending, f.pc ≠ golden.pc
  · exact .inl ⟨_, _, _, .fetches habsent⟩
  obtain ⟨skipped, fetch, later, ha⟩ := exists_aligns habsent
  cases hd : fetch.instr.demand with
  | nothing => exact .inr ⟨_, _, _, _, _, _, ha, .silent hd⟩
  | unknown => exact .inr ⟨_, _, _, _, _, _, ha, .unknown hd⟩
  | access width =>
      cases hp : p.accesses.pending with
      | nil => exact .inl ⟨_, _, _, .accesses ha hd hp⟩
      | cons access rest => exact .inr ⟨_, _, _, _, _, _, ha, .stored hd hp⟩
  | commit mayReorder =>
      cases hr : repeatedWrite? p.shadow golden with
      | some write => exact .inr ⟨_, _, _, _, _, _, ha, .supplied hd hr⟩
      | none =>
          cases hp : promoted settings.reorderWindow (expectedWrite? mayReorder golden)
              p.commits.pending with
          | nil => exact .inl ⟨_, _, _, .commits ha hd hr (promoted_eq_nil_iff.1 hp)⟩
          | cons commit rest => exact .inr ⟨_, _, _, _, _, _, ha, .observed hd hr hp⟩

/-! ## Steps -/

/-- The commits once the write of a golden entry that repeats was spliced in. -/
def spliced (golden : GoldenEntry) (p : Progress) : Feed RegisterWrite :=
  match repeatedWrite? p.shadow golden with
  | some write => p.commits.splice write
  | none => p.commits

/-- Dropping the spliced commit restores the commits. -/
theorem discard_spliced (golden : GoldenEntry) (p : Progress) :
    (if (repeatedWrite? p.shadow golden).isSome then (spliced golden p).discard
      else spliced golden p) = p.commits := by
  unfold spliced
  cases repeatedWrite? p.shadow golden with
  | none => rfl
  | some write => exact Feed.discard_splice write p.commits

/-- The state in which an aligned fetch takes its effect. -/
def aligned (golden : GoldenEntry) (p : Progress) (skipped later : List Fetch) : Progress :=
  { p with
    commits := spliced golden p
    fetches := { taken := p.fetches.taken + skipped.length, pending := later } }

theorem step_of_takeEffect_ok {settings : Settings} {golden : GoldenEntry} {p : Progress}
    {skipped later : List Fetch} {fetch : Fetch} {taken : Taken}
    (ha : Aligns golden p.fetches.pending skipped fetch later)
    (ht : takeEffect settings.reorderWindow golden fetch
      (aligned golden p skipped (fetch :: later)) = .ok taken) :
    ∃ events, step settings golden p =
      { entries := skipped.map speculative ++ [{
          toFetch := fetch
          toEffect := taken.effect
          speculativeFetch := taken.isUnknown
          speculativeCommit := (repeatedWrite? p.shadow golden).isSome && taken.tookCommit }]
        stats := {
          speculativeFetches := skipped.length
          unknownInstructions := if taken.isUnknown then 1 else 0
          synthesizedCommits :=
            if (repeatedWrite? p.shadow golden).isSome && taken.tookCommit then 1 else 0
          reorderedCommits := if taken.reordered then 1 else 0 }
        events := events
        progress := { taken.progress with
          fetches := { taken := p.fetches.taken + skipped.length + 1, pending := later }
          commits := if (repeatedWrite? p.shadow golden).isSome && !taken.tookCommit
            then taken.progress.commits.discard else taken.progress.commits } } := by
  unfold step
  rw [takeWhile_of_aligns ha]
  unfold aligned spliced at ht
  cases hr : repeatedWrite? p.shadow golden with
  | none =>
      rw [hr] at ht
      simp only [Feed.next?, ht]
      exact ⟨_, rfl⟩
  | some write =>
      rw [hr] at ht
      simp only [Feed.next?, ht]
      -- Whether the spliced commit is dropped again depends on whether one was taken.
      cases taken.tookCommit with
      | true => exact ⟨_, rfl⟩
      | false => exact ⟨_, rfl⟩

theorem step_of_takeEffect_error {settings : Settings} {golden : GoldenEntry} {p : Progress}
    {skipped later : List Fetch} {fetch : Fetch} {stream : Stream}
    (ha : Aligns golden p.fetches.pending skipped fetch later)
    (ht : takeEffect settings.reorderWindow golden fetch
      (aligned golden p skipped (fetch :: later)) = .error stream) :
    ∃ events, step settings golden p =
      { entries := skipped.map speculative
        stats := {
          speculativeFetches := skipped.length
          synthesizedCommits := (repeatedWrite? p.shadow golden).toList.length }
        events := events
        progress := aligned golden p skipped (fetch :: later)
        ranOut := some stream } := by
  unfold step
  rw [takeWhile_of_aligns ha]
  unfold aligned spliced at ht ⊢
  cases hr : repeatedWrite? p.shadow golden with
  | none =>
      rw [hr] at ht
      simp only [Feed.next?, ht]
      exact ⟨_, rfl⟩
  | some write =>
      rw [hr] at ht
      simp only [Feed.next?, ht]
      exact ⟨_, rfl⟩

/-- The step of a golden entry that is served. -/
theorem step_of_serves {settings : Settings} {golden : GoldenEntry} {p q : Progress}
    {skipped later : List Fetch} {fetch : Fetch} {entry : ReconciledEntry} {stats : Stats}
    (ha : Aligns golden p.fetches.pending skipped fetch later)
    (hs : Serves settings golden fetch p entry stats q) :
    ∃ events, step settings golden p =
      { entries := skipped.map speculative ++ [entry]
        stats := { stats with speculativeFetches := skipped.length }
        events := events
        progress := { q with
          fetches := { taken := p.fetches.taken + skipped.length + 1, pending := later } } } := by
  cases hs with
  | silent demand =>
      obtain ⟨events, he⟩ := step_of_takeEffect_ok ha (takeEffect_of_nothing demand)
      refine ⟨events, he.trans ?_⟩
      simp [aligned, discard_spliced, ReconciledEntry.ofFetch]
  | unknown demand =>
      obtain ⟨_, hu⟩ := takeEffect_of_unknown demand
      obtain ⟨events, he⟩ := step_of_takeEffect_ok ha hu
      refine ⟨events, he.trans ?_⟩
      simp [aligned, discard_spliced, speculative, ReconciledEntry.ofFetch]
  | stored demand front =>
      obtain ⟨events, he⟩ := step_of_takeEffect_ok ha
        ((takeEffect_of_access demand).trans (takeAccess_of_front front))
      refine ⟨events, he.trans ?_⟩
      simp [aligned, discard_spliced]
  | @supplied mayReorder write demand repeated =>
      -- The commit that is taken is the one spliced in, so the pending ones are as before.
      obtain ⟨hw, -⟩ := repeatedWrite?_eq_some_iff.1 repeated
      have hf := bringForward_of_front settings.reorderWindow mayReorder hw
        (p.commits.pending_splice write)
      obtain ⟨_, ht⟩ := takeCommit_of_front (p := aligned golden p skipped (fetch :: later))
        (by rw [aligned, spliced, repeated]; exact congrArg Prod.snd hf)
      obtain ⟨events, he⟩ := step_of_takeEffect_ok ha ((takeEffect_of_commit demand).trans ht)
      refine ⟨events, he.trans ?_⟩
      simp [aligned, spliced, repeated, hf, follow_of_repeated repeated]
  | @observed mayReorder commit rest demand fresh front =>
      have hf := bringForward_snd settings.reorderWindow (expectedWrite? mayReorder golden) p.commits
      rw [front] at hf
      obtain ⟨_, ht⟩ := takeCommit_of_front (p := aligned golden p skipped (fetch :: later))
        (by rw [aligned, spliced, fresh]; exact hf)
      obtain ⟨events, he⟩ := step_of_takeEffect_ok ha ((takeEffect_of_commit demand).trans ht)
      refine ⟨events, he.trans ?_⟩
      simp [aligned, spliced, fresh]

/-- The step of a golden entry at which a stream runs out. -/
theorem step_of_stops (settings : Settings) {golden : GoldenEntry} {p : Progress}
    {stream : Stream} {skipped later : List Fetch} (hs : Stops golden p stream skipped later) :
    ∃ events, step settings golden p =
      { entries := skipped.map speculative
        stats := {
          speculativeFetches := skipped.length
          synthesizedCommits := (repeatedWrite? p.shadow golden).toList.length }
        events := events
        progress := aligned golden p skipped later
        ranOut := some stream } := by
  cases hs with
  | fetches h =>
      unfold step
      rw [takeWhile_of_absent h]
      exact ⟨_, rfl⟩
  | accesses aligns demand empty =>
      exact step_of_takeEffect_error aligns
        ((takeEffect_of_access demand).trans (takeAccess_of_empty empty))
  | commits aligns demand fresh empty =>
      refine step_of_takeEffect_error aligns
        ((takeEffect_of_commit demand).trans (takeCommit_of_empty ?_))
      rw [aligned, spliced, fresh]
      exact empty

/-! ## Whole runs -/

/-- A run along a golden trace, the first entry of which has the given index. -/
inductive Run (settings : Settings) :
    (index : Nat) → List GoldenEntry → Progress → Reconciliation → Prop where
  | finished {index : Nat} {p : Progress} :
      Run settings index [] p
        { entries := [], outcome := .complete, cursors := p.cursors, stats := {} }
  | stopped {index : Nat} {golden : GoldenEntry} {rest : List GoldenEntry} {p : Progress}
      {stream : Stream} {skipped later : List Fetch}
      (stops : Stops golden p stream skipped later) :
      Run settings index (golden :: rest) p
        { entries := skipped.map speculative
          outcome := .exhausted stream index
          cursors := { p.cursors with fetches := p.fetches.taken + skipped.length }
          stats := {
            speculativeFetches := skipped.length
            synthesizedCommits := (repeatedWrite? p.shadow golden).toList.length } }
  | served {index : Nat} {golden : GoldenEntry} {rest : List GoldenEntry} {p q : Progress}
      {skipped later : List Fetch} {fetch : Fetch} {entry : ReconciledEntry} {stats : Stats}
      {r : Reconciliation}
      (aligns : Aligns golden p.fetches.pending skipped fetch later)
      (serves : Serves settings golden fetch p entry stats q)
      (run : Run settings (index + 1) rest
        { q with fetches := { taken := p.fetches.taken + skipped.length + 1, pending := later } } r) :
      Run settings index (golden :: rest) p
        { r with
          entries := skipped.map speculative ++ entry :: r.entries
          stats := { stats with speculativeFetches := skipped.length } + r.stats }

/-- A spliced commit is not counted as taken. -/
theorem cursors_aligned (golden : GoldenEntry) (p : Progress) (skipped later : List Fetch) :
    (aligned golden p skipped later).cursors =
      { p.cursors with fetches := p.fetches.taken + skipped.length } := by
  unfold aligned spliced Progress.cursors
  cases repeatedWrite? p.shadow golden with
  | none => rfl
  | some write => rfl

theorem run_walk (settings : Settings) (index : Nat) (golden : List GoldenEntry) (p : Progress) :
    Run settings index golden p (walk settings index golden p).1 := by
  induction golden generalizing index p with
  | nil => exact .finished
  | cons entry rest ih =>
      rcases stops_or_serves settings entry p with
        ⟨stream, skipped, later, hs⟩ | ⟨skipped, fetch, later, reconciled, stats, q, ha, hs⟩
      · obtain ⟨events, he⟩ := step_of_stops settings hs
        rw [walk, he]
        simp only [cursors_aligned]
        exact .stopped hs
      · obtain ⟨events, he⟩ := step_of_serves ha hs
        rw [walk, he]
        simp only [List.append_assoc, List.singleton_append]
        exact .served ha hs (ih _ _)

/-- There is no other run. -/
theorem Run.eq_walk {settings : Settings} {index : Nat} {golden : List GoldenEntry} {p : Progress}
    {r : Reconciliation} (h : Run settings index golden p r) :
    r = (walk settings index golden p).1 := by
  induction h with
  | finished => rfl
  | stopped stops =>
      obtain ⟨events, he⟩ := step_of_stops settings stops
      rw [walk, he]
      simp only [cursors_aligned]
  | served aligns serves run ih =>
      obtain ⟨events, he⟩ := step_of_serves aligns serves
      rw [walk, he]
      simp only [List.append_assoc, List.singleton_append, ← ih]

end Reconciliation

/-- **Every reconciliation is a run** from the start of the three streams. -/
theorem run_reconcile (golden : List GoldenEntry) (trace : DeviceTrace) (settings : Settings) :
    Reconciliation.Run settings 0 golden (.start settings trace) (reconcile golden trace settings) :=
  Reconciliation.run_walk settings 0 golden (.start settings trace)

theorem reconcile_eq_of_run {golden : List GoldenEntry} {trace : DeviceTrace} {settings : Settings}
    {r : Reconciliation} (h : Reconciliation.Run settings 0 golden (.start settings trace) r) :
    reconcile golden trace settings = r :=
  h.eq_walk.symm

end Lockstep
