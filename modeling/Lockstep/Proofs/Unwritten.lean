import Lockstep.Proofs.Lanes
import Lockstep.Proofs.Repetition
import Lockstep.Verification

/-!
# Bytes that no store wrote

The bus shows a whole word where a store wrote a byte or two of it. What stands in the other bytes is nobody's
business, and neither are the words of accesses that no store took. Two recordings that differ in nothing else
are the same to a verification, and two that differ in a byte that a store wrote are not
(`verify_eq_iff_sameWritten`).

The one direction is a simulation: the run over the first recording is also one over the second
(`Run.with_accesses`). For the other direction the stored values are read off the run, access by access
(`Run.storedValues_eq`).
-/

namespace Lockstep

/-- A store: how wide it is, and its golden address, where it has one. -/
abbrev Store := StoreWidth × Option UInt32

/-- The address that tells in which lane the store wrote. -/
def Store.laneAddress (store : Store) (access : MemoryAccess) : UInt32 :=
  store.2.getD access.address

/-- The value that the store wrote, as an access shows it. -/
def Store.valueOf (store : Store) (access : MemoryAccess) : UInt32 :=
  store.1.narrow access.raw (store.laneAddress access)

/-- The stores among the golden entries that were matched to a fetch. The `j`-th of them took the `j`-th
access. -/
def storesOf (pairs : List (GoldenEntry × ReconciledEntry)) : List Store :=
  pairs.filterMap fun (golden, entry) =>
    entry.instr.category.storeWidth?.map fun width => (width, golden.memAddr)

/-- The accesses that the stores took agree on the bytes that these wrote. -/
def SameWritten (stores : List Store) (accesses others : List MemoryAccess) : Prop :=
  ∀ (j : Nat) (store : Store) (access other : MemoryAccess), stores[j]? = some store →
    accesses[j]? = some access → others[j]? = some other →
    ∀ k, store.1.Writes (store.laneAddress access) k → byteAt access.raw k = byteAt other.raw k

/-- The state in which other accesses are pending. -/
def Progress.withAccesses (p : Progress) (accesses : List MemoryAccess) : Progress :=
  { p with accesses := p.accesses.withPending accesses }

/-! ## Stores and the accesses they took -/

section stores

variable {golden : GoldenEntry} {entry : ReconciledEntry} {store : Store} {stores : List Store}
  {access other : MemoryAccess} {accesses others : List MemoryAccess}

theorem storesOf_cons (pair : GoldenEntry × ReconciledEntry)
    (pairs : List (GoldenEntry × ReconciledEntry)) :
    storesOf (pair :: pairs) = storesOf [pair] ++ storesOf pairs :=
  List.filterMap_append (l := [pair])

theorem storesOf_of_access {width : StoreWidth} (h : entry.instr.demand = .access width) :
    storesOf [(golden, entry)] = [(width, golden.memAddr)] := by
  have hcategory := Instruction.demand_eq_access_iff.1 h
  simp [storesOf, hcategory, Category.storeWidth?]

theorem storesOf_of_not_access (h : ∀ width, entry.instr.demand ≠ .access width) :
    storesOf [(golden, entry)] = [] := by
  cases hcategory : entry.instr.category with
  | store width => exact absurd (Instruction.demand_eq_access_iff.2 hcategory) (h width)
  | load | branch | jump | registerOp | fence | unknown =>
      simp [storesOf, hcategory, Category.storeWidth?]

theorem sameWritten_nil (accesses others : List MemoryAccess) : SameWritten [] accesses others :=
  nofun

theorem sameWritten_cons_iff :
    SameWritten (store :: stores) (access :: accesses) (other :: others) ↔
      (∀ k, store.1.Writes (store.laneAddress access) k → byteAt access.raw k = byteAt other.raw k) ∧
        SameWritten stores accesses others := by
  constructor
  · intro h
    exact ⟨h 0 store access other rfl rfl rfl, fun j => h (j + 1)⟩
  · rintro ⟨hfirst, hlater⟩ j
    cases j with
    | zero =>
        rintro _ _ _ ⟨⟩ ⟨⟩ ⟨⟩
        exact hfirst
    | succ j => exact hlater j

/-- Accesses to the same address show the same value of a store exactly if they agree on the bytes that it
wrote. -/
theorem Store.valueOf_eq_iff (haddress : other.address = access.address) :
    store.valueOf access = store.valueOf other ↔
      ∀ k, store.1.Writes (store.laneAddress access) k → byteAt access.raw k = byteAt other.raw k := by
  have hlane : store.laneAddress other = store.laneAddress access := by
    rw [laneAddress, haddress, laneAddress]
  rw [valueOf, valueOf, hlane]
  exact store.1.narrow_eq_narrow_iff _ _ _

end stores

namespace Reconciliation

variable {settings : Settings} {golden : GoldenEntry} {fetch : Fetch} {p q : Progress}
  {skipped later : List Fetch} {entry : ReconciledEntry} {stats : Stats} {stores : List Store}
  {others : List MemoryAccess}

/-! ## One golden entry -/

/-- The entry stores nothing, and the accesses play no part in how it is served. -/
structure LeavesAccesses (settings : Settings) (golden : GoldenEntry) (fetch : Fetch) (p q : Progress)
    (entry : ReconciledEntry) (stats : Stats) : Prop where
  stores : storesOf [(golden, entry)] = []
  stored : entry.memVal = none
  pending : q.accesses.pending = p.accesses.pending
  again : ∀ others,
    Serves settings golden fetch (p.withAccesses others) entry stats (q.withAccesses others)

/-- The entry is that of a store, which takes the access in front. From another one to the same address
that shows the same value it is served in the same way. -/
structure TakesAccess (settings : Settings) (golden : GoldenEntry) (fetch : Fetch) (p q : Progress)
    (entry : ReconciledEntry) (stats : Stats) (store : Store) (access : MemoryAccess) : Prop where
  stores : storesOf [(golden, entry)] = [store]
  stored : entry.memVal = some (store.valueOf access)
  front : p.accesses.pending = access :: q.accesses.pending
  again : ∀ other later, other.address = access.address →
    store.valueOf access = store.valueOf other →
    Serves settings golden fetch (p.withAccesses (other :: later)) entry stats (q.withAccesses later)

/-- **What a step does to the accesses.** -/
theorem Serves.leaves_or_stores (h : Serves settings golden fetch p entry stats q) :
    LeavesAccesses settings golden fetch p q entry stats ∨
      ∃ store access, TakesAccess settings golden fetch p q entry stats store access := by
  cases h with
  | supplied demand repeated =>
      exact .inl ⟨storesOf_of_not_access (by simp [demand]), rfl, rfl, fun _ => .supplied demand repeated⟩
  | observed demand fresh front =>
      exact .inl ⟨storesOf_of_not_access (by simp [demand]), rfl, rfl, fun _ => .observed demand fresh front⟩
  | silent demand =>
      exact .inl ⟨storesOf_of_not_access (by simp [ReconciledEntry.ofFetch, demand]), rfl, rfl,
        fun _ => .silent demand⟩
  | unknown demand =>
      exact .inl ⟨storesOf_of_not_access (by simp [speculative, ReconciledEntry.ofFetch, demand]), rfl, rfl,
        fun _ => .unknown demand⟩
  | @stored width access later demand front =>
      refine .inr ⟨(width, golden.memAddr), access, storesOf_of_access (by simp [demand]), rfl, front, ?_⟩
      intro other later haddress hvalue
      have heffect : Effect.ofStore access.address (Store.valueOf (width, golden.memAddr) access) =
          .ofStore other.address (Store.valueOf (width, golden.memAddr) other) := by
        rw [hvalue, haddress]
      show Serves _ _ _ _
        { toFetch := fetch
          toEffect := .ofStore access.address (Store.valueOf (width, golden.memAddr) access) } _ _
      rw [heffect]
      exact .stored demand rfl

/-- **One step of the simulation.** The entry is served in the same way from the other accesses, and those
that are left agree again on what the later stores wrote. -/
theorem Serves.with_accesses (h : Serves settings golden fetch p entry stats q)
    (haddresses : others.map (·.address) = p.accesses.pending.map (·.address))
    (hsame : SameWritten (storesOf [(golden, entry)] ++ stores) p.accesses.pending others) :
    ∃ rest, rest.map (·.address) = q.accesses.pending.map (·.address) ∧
      SameWritten stores q.accesses.pending rest ∧
      Serves settings golden fetch (p.withAccesses others) entry stats (q.withAccesses rest) := by
  rcases h.leaves_or_stores with leaves | ⟨store, access, takes⟩
  · rw [leaves.stores, List.nil_append, ← leaves.pending] at hsame
    rw [← leaves.pending] at haddresses
    exact ⟨others, haddresses, hsame, leaves.again others⟩
  · rw [takes.front, List.map_cons] at haddresses
    obtain ⟨other, rest, rfl, haddress, hrest⟩ := List.map_eq_cons_iff.1 haddresses
    rw [takes.stores, takes.front, List.singleton_append, sameWritten_cons_iff] at hsame
    obtain ⟨hbytes, hlater⟩ := hsame
    have hvalue := (Store.valueOf_eq_iff haddress).2 hbytes
    exact ⟨rest, hrest, hlater, takes.again other rest haddress hvalue⟩

/-- Where a run stops, it stops with the other accesses as well. -/
theorem Stops.with_accesses {stream : Stream} (h : Stops golden p stream skipped later)
    (haddresses : others.map (·.address) = p.accesses.pending.map (·.address)) :
    Stops golden (p.withAccesses others) stream skipped later := by
  cases h with
  | fetches habsent => exact .fetches habsent
  | commits aligns demand fresh empty => exact .commits aligns demand fresh empty
  | accesses aligns demand empty =>
      rw [empty, List.map_nil, List.map_eq_nil_iff] at haddresses
      exact .accesses aligns demand haddresses

/-! ## Whole runs -/

variable {index : Nat} {goldens : List GoldenEntry} {r : Reconciliation}

theorem storesOf_served (rest : List GoldenEntry)
    (aligns : Aligns golden p.fetches.pending skipped fetch later)
    (serves : Serves settings golden fetch p entry stats q) (entries : List ReconciledEntry) :
    storesOf (matched (golden :: rest) (skipped.map speculative ++ entry :: entries)) =
      storesOf [(golden, entry)] ++ storesOf (matched rest entries) := by
  rw [matched_served rest aligns serves, storesOf_cons]

/-- **The run over the one recording is a run over the other.** -/
theorem Run.with_accesses (h : Run settings index goldens p r)
    (haddresses : others.map (·.address) = p.accesses.pending.map (·.address))
    (hsame : SameWritten (storesOf (matched goldens r.entries)) p.accesses.pending others) :
    Run settings index goldens (p.withAccesses others) r := by
  induction h generalizing others with
  | finished => exact .finished
  | stopped stops => exact .stopped (stops.with_accesses haddresses)
  | @served index golden rest p q skipped later fetch entry stats r aligns serves run ih =>
      rw [storesOf_served rest aligns serves] at hsame
      obtain ⟨pending, hpending, hlater, hserves⟩ := serves.with_accesses haddresses hsame
      exact .served (p := p.withAccesses others) aligns hserves (ih hpending hlater)

/-- **What a run stored**: the values that the accesses show of its stores, one by one. -/
theorem Run.storedValues_eq (h : Run settings index goldens p r) :
    r.entries.filterMap (·.memVal) =
      List.zipWith Store.valueOf (storesOf (matched goldens r.entries)) p.accesses.pending := by
  have hskipped : ∀ skipped : List Fetch, (skipped.map speculative).filterMap (·.memVal) = [] :=
    fun skipped => List.filterMap_eq_nil_iff.2 (List.forall_mem_map.2 fun _ _ => rfl)
  induction h with
  | finished => rfl
  | @stopped index golden rest p stream skipped later stops =>
      show (skipped.map speculative).filterMap _ = List.zipWith _ (storesOf (matched _ _)) _
      rw [hskipped, matched_of_absent stops.skipped_ne]
      rfl
  | @served index golden rest p q skipped later fetch entry stats r aligns serves run ih =>
      show (skipped.map speculative ++ entry :: r.entries).filterMap _ =
        List.zipWith _ (storesOf (matched _ _)) _
      rw [storesOf_served rest aligns serves, List.filterMap_append, hskipped, List.nil_append]
      rcases serves.leaves_or_stores with leaves | ⟨store, access, takes⟩
      · simp only [List.filterMap_cons, leaves.stored]
        rw [ih, leaves.stores, leaves.pending]
        rfl
      · simp only [List.filterMap_cons, takes.stored]
        rw [ih, takes.stores, takes.front]
        rfl

end Reconciliation

/-! ## Whole traces -/

/-- Where the same stores show the same values in both, two recordings agree on what was written. -/
theorem sameWritten_of_valueOf_eq {stores : List Store} {accesses others : List MemoryAccess}
    (haddresses : others.map (·.address) = accesses.map (·.address))
    (hvalues : List.zipWith Store.valueOf stores accesses = List.zipWith Store.valueOf stores others) :
    SameWritten stores accesses others := by
  intro j store access other hstore haccess hother
  have haddress : other.address = access.address := by
    have hj := congrArg (·[j]?) haddresses
    simpa [haccess, hother] using hj
  have hvalue : store.valueOf access = store.valueOf other := by
    have hj := congrArg (·[j]?) hvalues
    simpa [List.getElem?_zipWith, hstore, haccess, hother] using hj
  exact (Store.valueOf_eq_iff haddress).1 hvalue

/-- **Bytes that no store wrote do not matter, and all others do.** Two recordings have the same fetches and
commits, and accesses to the same addresses. Verifying them gives the same reconciliation and the same
mismatches exactly if the accesses that the stores took agree on the bytes that these wrote. -/
theorem verify_eq_iff_sameWritten (golden : List GoldenEntry) (trace other : DeviceTrace)
    (settings : Settings) (hfetches : other.fetches = trace.fetches)
    (hcommits : other.commits = trace.commits)
    (haddresses : other.accesses.map (·.address) = trace.accesses.map (·.address)) :
    verify golden other settings = verify golden trace settings ↔
      SameWritten (storesOf (matched golden (reconcile golden trace settings).entries))
        trace.accesses other.accesses := by
  have hrun := run_reconcile golden trace settings
  constructor
  · intro hverify
    have hsame : reconcile golden other settings = reconcile golden trace settings :=
      congrArg Verification.reconciliation hverify
    have hother := run_reconcile golden other settings
    rw [hsame] at hother
    exact sameWritten_of_valueOf_eq haddresses
      (hrun.storedValues_eq.symm.trans hother.storedValues_eq)
  · intro hwritten
    have hstart : Progress.start settings other =
        (Progress.start settings trace).withAccesses other.accesses := by
      unfold Progress.start
      rw [hfetches, hcommits]
      rfl
    have hother := hrun.with_accesses haddresses hwritten
    rw [← hstart] at hother
    unfold verify
    rw [reconcile_eq_of_run hother]

/-- A byte store to lane two, a half store to lane three, and a half store that golden tells no address of,
so that the lane is that of the access. The recordings differ in each byte that these do not write, and in
the whole of the last access, which no store took. -/
theorem verify_eq_iff_sameWritten_of_lanes :
    let golden : List GoldenEntry := [
      { pc := 0x100, instr := 0x00a58023, memAddr := some 0x1002, memVal := some 0xbb },
      { pc := 0x104, instr := 0x00500593, targetReg := some 11, regVal := some 5 },
      { pc := 0x108, instr := 0x00a59023, memAddr := some 0x1003, memVal := some 0xaa },
      { pc := 0x10c, instr := 0x00a59023, memVal := some 0xccdd }]
    let trace : DeviceTrace := {
      fetches := [⟨0x100, 0x00a58023⟩, ⟨0x200, 0x00a58023⟩, ⟨0x104, 0x00500593⟩, ⟨0x108, 0x00a59023⟩,
        ⟨0x10c, 0x00a59023⟩]
      commits := [⟨11, 5⟩]
      accesses := [⟨0x1000, 0xaabbccdd⟩, ⟨0x1000, 0xaabbccdd⟩, ⟨0x1000, 0xaabbccdd⟩, ⟨0x2000, 1⟩] }
    let other : DeviceTrace := { trace with
      accesses := [⟨0x1000, 0x00bb0000⟩, ⟨0x1000, 0xaa000000⟩, ⟨0x1000, 0x0000ccdd⟩, ⟨0x2000, 2⟩] }
    let stores := storesOf (matched golden (reconcile golden trace {}).entries)
    other.fetches = trace.fetches ∧ other.commits = trace.commits ∧
      other.accesses.map (·.address) = trace.accesses.map (·.address) ∧
      SameWritten stores trace.accesses other.accesses ∧
      verify golden other {} = verify golden trace {} := by
  intro golden trace other stores
  have hstores : stores = [(.byte, some 0x1002), (.half, some 0x1003), (.half, none)] := by decide
  have hbyte : ∀ k < 4, StoreWidth.byte.Writes 0x1002 k →
      byteAt 0xaabbccdd k = byteAt 0x00bb0000 k := by decide
  have hhalf : ∀ k < 4, StoreWidth.half.Writes 0x1003 k →
      byteAt 0xaabbccdd k = byteAt 0xaa000000 k := by decide
  have hbare : ∀ k < 4, StoreWidth.half.Writes 0x1000 k →
      byteAt 0xaabbccdd k = byteAt 0x0000ccdd k := by decide
  have hsame : SameWritten stores trace.accesses other.accesses := by
    rw [hstores]
    exact sameWritten_cons_iff.2 ⟨fun k h => hbyte k h.lt_four h,
      sameWritten_cons_iff.2 ⟨fun k h => hhalf k h.lt_four h,
        sameWritten_cons_iff.2 ⟨fun k h => hbare k h.lt_four h, sameWritten_nil _ _⟩⟩⟩
  exact ⟨rfl, rfl, rfl, hsame, (verify_eq_iff_sameWritten golden trace other {} rfl rfl rfl).2 hsame⟩

end Lockstep
