import Lockstep.Proofs.Comparison
import Lockstep.Proofs.Observation
import Lockstep.Verification

/-!
# No false alarms

A device that ran the golden trace is not reported. The simulation behind this ties the three streams to
the golden entries that are still to come: the pending fetches run through them (`ShowsFetches`), the
pending accesses are those of their stores (`ShowsAccesses`), and the pending commits are `Ready` for
them. What `Ready` means is left open: a `Supply` says what the argument needs of it, so the same
simulation serves devices that retire in program order and devices that do not.
-/

namespace Lockstep

/-- A condition on the pending commits under which each golden entry finds its own commit. -/
structure Supply (window : Nat)
    (Ready : RegisterFile → List GoldenEntry → List RegisterWrite → Prop) : Prop where
  /-- An entry without a register write needs no commit. -/
  silent : ∀ {file golden rest pending}, Ready file (golden :: rest) pending →
    golden.registerWrite? = none → Ready file rest pending
  /-- Neither does an entry whose write repeats. -/
  repeated : ∀ {file golden rest pending write}, Ready file (golden :: rest) pending →
    Reconciliation.repeatedWrite? file golden = some write → Ready file rest pending
  /-- Any other write is in front once it was brought forward, and what is behind it serves the rest. -/
  fresh : ∀ {file golden rest pending mayReorder write}, Ready file (golden :: rest) pending →
    golden.instr.demand = .commit mayReorder → golden.registerWrite? = some write →
    file.write write ≠ file →
    ∃ later, Reconciliation.promoted window (Reconciliation.expectedWrite? mayReorder golden) pending =
      write :: later ∧ Ready (file.write write) rest later

/-! ## Records of well-formed entries -/

namespace GoldenEntry

theorem normalized_of_registerWrite? {settings : Settings} {entry : GoldenEntry}
    {write : RegisterWrite} (hw : entry.registerWrite? = some write) (hv : entry.memVal = none) :
    entry.normalized settings = Record.of entry.toFetch (.ofWrite write) := by
  obtain ⟨hr, hx⟩ := registerWrite?_eq_some_iff.1 hw
  rw [normalized_of_memVal_eq_none hv, Effect.ofWrite, hr, hx, hv]

theorem normalized_of_writesNoRegister {settings : Settings} {entry : GoldenEntry}
    (hn : entry.WritesNoRegister) (hv : entry.memVal = none) :
    entry.normalized settings = Record.of entry.toFetch {} := by
  rw [normalized_of_memVal_eq_none hv, hn.1, hn.2, hv]

theorem ShownBy.normalized {settings : Settings} {entry : GoldenEntry} {access : MemoryAccess}
    {width : StoreWidth} (h : entry.ShownBy settings access) (hn : entry.WritesNoRegister)
    (hc : entry.instr.category = .store width) :
    entry.normalized settings = Record.of entry.toFetch
      (.ofStore access.address
        (width.narrow access.raw (entry.memAddr.getD access.address))) := by
  obtain ⟨width', address, value, hc', ha, hv, hshown, hnarrow⟩ := h
  have hwidth : width = width' := Category.store.inj (hc.symm.trans hc')
  subst hwidth
  rw [normalized_of_isStore (Instruction.isStore_of_category hc) (by rw [hv]; rfl), hn.1, hn.2, ha,
    hv, hshown, Effect.ofStore, Option.getD_some, hnarrow, Option.map_some]

end GoldenEntry

namespace Reconciliation

variable {settings : Settings} {Ready : RegisterFile → List GoldenEntry → List RegisterWrite → Prop}
  {golden : GoldenEntry} {rest after : List GoldenEntry} {p q : Progress}

/-- No stream runs out at a well-formed entry. -/
theorem not_stops (supply : Supply settings.reorderWindow Ready) (hwf : golden.WellFormed)
    (hf : ShowsFetches (golden :: after) p.fetches.pending)
    (ha : ShowsAccesses settings (golden :: rest) p.accesses.pending)
    (hc : Ready p.shadow (golden :: rest) p.commits.pending) {stream : Stream}
    {skipped later : List Fetch} : ¬ Stops golden p stream skipped later := by
  intro hs
  cases hs with
  -- A stream that has run out lacks what the golden entry has to find there.
  | fetches habsent =>
      obtain ⟨_, _, aligns, -⟩ := hf.exists_aligns
      have hmem : golden.toFetch ∈ p.fetches.pending := by simp [aligns.pending_eq]
      exact habsent _ hmem rfl
  | accesses aligns demand empty =>
      obtain ⟨rfl, -⟩ := hf.of_aligns aligns
      have hstore := Instruction.isStore_of_category (Instruction.demand_eq_access_iff.1 demand)
      obtain ⟨access, later, hpending, -⟩ := (ShowsAccesses.cons_iff_of_isStore hstore).1 ha
      rw [hpending] at empty
      cases empty
  | commits aligns demand fresh empty =>
      obtain ⟨rfl, -⟩ := hf.of_aligns aligns
      obtain ⟨⟨write, hw, hpos, hlt⟩, -⟩ := hwf.carries demand
      obtain ⟨later, hfront, -⟩ := supply.fresh hc demand hw
        (write_ne_of_fresh fresh hw hpos hlt)
      rw [promoted_eq_nil_iff.2 empty] at hfront
      cases hfront

/-- A well-formed entry that is served retires with its own record, and leaves streams that serve the
entries after it. -/
theorem Serves.agrees (supply : Supply settings.reorderWindow Ready) (hwf : golden.WellFormed)
    (ha : ShowsAccesses settings (golden :: rest) p.accesses.pending)
    (hc : Ready p.shadow (golden :: rest) p.commits.pending) {entry : ReconciledEntry}
    {stats : Stats} (hs : Serves settings golden golden.toFetch p entry stats q) :
    entry.speculativeFetch = false ∧ golden.normalized settings = entry.record ∧
      ShowsAccesses settings rest q.accesses.pending ∧ Ready q.shadow rest q.commits.pending := by
  cases hs with
  | @supplied mayReorder write demand repeated =>
      obtain ⟨-, hv⟩ := hwf.carries demand
      obtain ⟨hw, -⟩ := repeatedWrite?_eq_some_iff.1 repeated
      have hstore := Instruction.isStore_eq_false_of_commit demand
      refine ⟨rfl, ?_, ?_, ?_⟩
      · exact GoldenEntry.normalized_of_registerWrite? hw hv
      · exact (ShowsAccesses.cons_iff_of_not_isStore hstore).1 ha
      · exact supply.repeated hc repeated
  | @observed mayReorder commit later demand fresh front =>
      obtain ⟨⟨write, hw, hpos, hlt⟩, hv⟩ := hwf.carries demand
      have hstore := Instruction.isStore_eq_false_of_commit demand
      -- The golden write itself is in front, so the commit that is taken is that write.
      obtain ⟨_, hfront, hready⟩ := supply.fresh hc demand hw (write_ne_of_fresh fresh hw hpos hlt)
      obtain ⟨rfl, rfl⟩ := List.cons.inj (front.symm.trans hfront)
      refine ⟨rfl, ?_, ?_, ?_⟩
      · exact GoldenEntry.normalized_of_registerWrite? hw hv
      · exact (ShowsAccesses.cons_iff_of_not_isStore hstore).1 ha
      · rw [RegisterFile.follow_of_some hw]
        exact hready
  | @stored width access later demand front =>
      obtain ⟨hn, -⟩ := hwf.carries demand
      have hcat := Instruction.demand_eq_access_iff.1 demand
      obtain ⟨_, _, hpending, hshown, hrest⟩ :=
        (ShowsAccesses.cons_iff_of_isStore (Instruction.isStore_of_category hcat)).1 ha
      obtain ⟨rfl, rfl⟩ := List.cons.inj (front.symm.trans hpending)
      refine ⟨rfl, ?_, hrest, ?_⟩
      · exact hshown.normalized hn hcat
      · exact supply.silent hc (GoldenEntry.registerWrite?_eq_none hn)
  | silent demand =>
      obtain ⟨hn, hv⟩ := hwf.carries demand
      have hstore := Instruction.isStore_eq_false_of_nothing demand
      refine ⟨rfl, ?_, ?_, ?_⟩
      · exact GoldenEntry.normalized_of_writesNoRegister hn hv
      · exact (ShowsAccesses.cons_iff_of_not_isStore hstore).1 ha
      · exact supply.silent hc (GoldenEntry.registerWrite?_eq_none hn)
  | unknown demand =>
      exact (hwf.carries demand).elim

/-- What a well-formed entry leaves: the register file follows it, and a store has used its access. -/
theorem Serves.follows (hwf : golden.WellFormed) {entry : ReconciledEntry} {stats : Stats}
    (hs : Serves settings golden golden.toFetch p entry stats q) :
    q.shadow = p.shadow.follow golden ∧
      q.accesses.pending = p.accesses.pending.drop (if golden.instr.isStore then 1 else 0) := by
  cases hs with
  | supplied demand repeated =>
      rw [Instruction.isStore_eq_false_of_commit demand]
      exact ⟨(follow_of_repeated repeated).symm, rfl⟩
  | observed demand fresh front =>
      rw [Instruction.isStore_eq_false_of_commit demand]
      exact ⟨rfl, rfl⟩
  | @stored width access later demand front =>
      obtain ⟨hn, -⟩ := hwf.carries demand
      have hstore := Instruction.isStore_of_category (Instruction.demand_eq_access_iff.1 demand)
      rw [RegisterFile.follow_of_none (GoldenEntry.registerWrite?_eq_none hn), hstore, front]
      exact ⟨rfl, rfl⟩
  | silent demand =>
      obtain ⟨hn, -⟩ := hwf.carries demand
      rw [RegisterFile.follow_of_none (GoldenEntry.registerWrite?_eq_none hn),
        Instruction.isStore_eq_false_of_nothing demand]
      exact ⟨rfl, rfl⟩
  | unknown demand =>
      exact (hwf.carries demand).elim

/-- **The simulation.** A run gets past well-formed entries for which the three streams are ready, and
has nothing to complain about there. What follows is a run along the entries behind them. -/
theorem Run.exists_after (supply : Supply settings.reorderWindow Ready) {index : Nat}
    {before : List GoldenEntry} {r : Reconciliation}
    (h : Run settings index (before ++ after) p r)
    (hwf : ∀ entry ∈ before, entry.WellFormed)
    (hf : ShowsFetches (before ++ after) p.fetches.pending)
    (ha : ShowsAccesses settings before p.accesses.pending)
    (hc : Ready p.shadow before p.commits.pending) :
    ∃ q r', Run settings (index + before.length) after q r' ∧
      q.shadow = before.foldl RegisterFile.follow p.shadow ∧
      ShowsFetches after q.fetches.pending ∧
      q.accesses.pending = p.accesses.pending.drop (before.countP (·.instr.isStore)) ∧
      Ready q.shadow [] q.commits.pending ∧
      r.outcome = r'.outcome ∧
      compareFrom settings index (before ++ after) (retiredEntries r.entries) =
        compareFrom settings (index + before.length) after (retiredEntries r'.entries) := by
  induction before generalizing index p r with
  | nil => exact ⟨p, r, h, rfl, hf, rfl, hc, rfl, rfl⟩
  | cons golden before ih =>
      obtain ⟨hgolden, hbefore⟩ := List.forall_mem_cons.1 hwf
      cases h with
      | stopped stops => exact absurd stops (not_stops supply hgolden hf ha hc)
      | @served _ _ _ _ q skipped later fetch entry stats r aligns serves run =>
          obtain ⟨rfl, hf⟩ := hf.of_aligns aligns
          obtain ⟨hretired, hrecord, ha, hc⟩ := serves.agrees supply hgolden ha hc
          obtain ⟨hshadow, haccesses⟩ := serves.follows hgolden
          obtain ⟨q', r', hrun, hfollow, hfetches, hdrop, hready, houtcome, hcompare⟩ :=
            ih run hbefore hf ha hc
          have hindex : index + (golden :: before).length = index + 1 + before.length := by
            rw [List.length_cons]
            omega
          have hstores : (golden :: before).countP (·.instr.isStore) =
              (if golden.instr.isStore then 1 else 0) + before.countP (·.instr.isStore) := by
            rw [List.countP_cons, Nat.add_comm]
          refine ⟨q', r', ?_, ?_, hfetches, ?_, hready, houtcome, ?_⟩
          · rw [hindex]
            exact hrun
          · rw [hfollow, List.foldl_cons, ← hshadow]
          · rw [hdrop, hstores, ← List.drop_drop, ← haccesses]
          · have hpair : pairMismatches settings index golden entry = [] :=
              pairMismatches_eq_nil_iff.2 hrecord
            rw [hindex, ← hcompare, List.cons_append, retiredEntries_skipped,
              retiredEntries_singleton hretired, List.singleton_append, compareFrom_cons_cons, hpair,
              List.nil_append]

/-- Where the streams are ready for the whole trace, the run is complete and leaves nothing to complain
about. -/
theorem Run.complete_of_ready (supply : Supply settings.reorderWindow Ready) {index : Nat}
    {golden : List GoldenEntry} {r : Reconciliation} (h : Run settings index golden p r)
    (hwf : ∀ entry ∈ golden, entry.WellFormed) (hf : ShowsFetches golden p.fetches.pending)
    (ha : ShowsAccesses settings golden p.accesses.pending)
    (hc : Ready p.shadow golden p.commits.pending) :
    r.outcome = .complete ∧ compareFrom settings index golden (retiredEntries r.entries) = [] := by
  rw [← List.append_nil golden] at h hf
  obtain ⟨q, r', hrun, -, -, -, -, houtcome, hcompare⟩ := h.exists_after supply hwf hf ha hc
  rw [List.append_nil] at hcompare
  rw [houtcome, hcompare]
  cases hrun with
  | finished => exact ⟨rfl, rfl⟩

end Reconciliation

/-! ## Devices that retire in program order -/

/-- Commits in program order are a supply, whatever the window: the next one is always the awaited
one, so nothing is brought forward. What comes behind the golden changes is not touched. -/
theorem supply_of_changes (window : Nat) (tail : List RegisterWrite) :
    Supply window fun file golden pending => changes file golden ++ tail = pending where
  silent := by
    intro file golden rest pending h hw
    rw [changes_cons_of_none hw] at h
    exact h
  repeated := by
    intro file golden rest pending write h hr
    obtain ⟨hw, hrepeats⟩ := Reconciliation.repeatedWrite?_eq_some_iff.1 hr
    rw [changes_cons_of_write_eq hw (RegisterFile.write_of_repeats hrepeats)] at h
    exact h
  fresh := by
    intro file golden rest pending mayReorder write h demand hw hne
    rw [changes_cons_of_write_ne hw hne] at h
    subst h
    exact ⟨_, Reconciliation.promoted_of_front window mayReorder hw _, rfl⟩

theorem Supply.of_forall {window : Nat}
    {Ready : List RegisterWrite → RegisterFile → List GoldenEntry → List RegisterWrite → Prop}
    (h : ∀ tail, Supply window (Ready tail)) :
    Supply window fun file golden pending => ∃ tail, Ready tail file golden pending where
  silent := by
    rintro file golden rest pending ⟨tail, hready⟩ hw
    exact ⟨tail, (h tail).silent hready hw⟩
  repeated := by
    rintro file golden rest pending write ⟨tail, hready⟩ hr
    exact ⟨tail, (h tail).repeated hready hr⟩
  fresh := by
    rintro file golden rest pending mayReorder write ⟨tail, hready⟩ demand hw hne
    obtain ⟨later, hfront, hlater⟩ := (h tail).fresh hready demand hw hne
    exact ⟨later, hfront, tail, hlater⟩

theorem supply_of_program_order (window : Nat) :
    Supply window fun file golden pending => changes file golden <+: pending :=
  .of_forall (supply_of_changes window)

/-- **No false alarm.** If the device ran a well-formed golden trace and showed it in program order,
whatever it fetched in between and whatever it did afterwards, then its verification is complete and
finds nothing wrong. -/
theorem verify_of_faithful (golden : List GoldenEntry) (trace : DeviceTrace) (settings : Settings)
    (hwf : ∀ entry ∈ golden, entry.WellFormed) (hf : Faithful settings golden trace) :
    (verify golden trace settings).reconciliation.outcome = .complete ∧
      (verify golden trace settings).mismatches = [] :=
  (run_reconcile golden trace settings).complete_of_ready
    (supply_of_program_order settings.reorderWindow) hwf hf.fetches hf.accesses hf.commits

/-- A constant, a byte store of it, a load that finds it again, and a call. The device also fetches from a
place that it leaves, does not show the repeated write, and goes on after the golden trace has ended. -/
theorem verify_of_faithful_call :
    let golden : List GoldenEntry := [
      { pc := 0x100, instr := 0x00500593, targetReg := some 11, regVal := some 5 },
      { pc := 0x104, instr := 0x00b601a3, memAddr := some 0x2003, memVal := some 5 },
      { pc := 0x108, instr := 0x00060583, targetReg := some 11, regVal := some 5,
        memAddr := some 0x2003 },
      { pc := 0x10c, instr := 0x040000ef, targetReg := some 1, regVal := some 0x110 }]
    let trace : DeviceTrace := {
      fetches := [⟨0x100, 0x00500593⟩, ⟨0x200, 0x00000013⟩, ⟨0x104, 0x00b601a3⟩,
        ⟨0x108, 0x00060583⟩, ⟨0x10c, 0x040000ef⟩, ⟨0x14c, 0x00700613⟩]
      commits := [⟨11, 5⟩, ⟨1, 0x110⟩, ⟨12, 7⟩]
      accesses := [⟨0x2000, 0x05000000⟩, ⟨0x2004, 0⟩] }
    let settings : Settings := { wordBoundaryStores := true }
    (∀ entry ∈ golden, entry.WellFormed) ∧ Faithful settings golden trace ∧
      (verify golden trace settings).reconciliation.outcome = .complete ∧
      (verify golden trace settings).mismatches = [] := by
  intro golden trace settings
  have hwf : ∀ entry ∈ golden, entry.WellFormed := by decide
  have hfetches : ShowsFetches golden trace.fetches :=
    @ShowsFetches.next _ _ [] _ nofun <|
    @ShowsFetches.next _ _ [⟨0x200, 0x00000013⟩] _ (by decide) <|
    @ShowsFetches.next _ _ [] _ nofun <|
    @ShowsFetches.next _ _ [] _ nofun <| .done _
  have haccesses : ShowsAccesses settings golden trace.accesses := by
    refine (ShowsAccesses.cons_iff_of_not_isStore (by decide)).2 ?_
    refine (ShowsAccesses.cons_iff_of_isStore (by decide)).2 ⟨_, _, rfl, ?_, ?_⟩
    · exact ⟨.byte, 0x2003, 5, by decide, rfl, rfl, by decide, by decide⟩
    · refine (ShowsAccesses.cons_iff_of_not_isStore (by decide)).2 ?_
      refine (ShowsAccesses.cons_iff_of_not_isStore (by decide)).2 ?_
      nofun
  have hf : Faithful settings golden trace := ⟨hfetches, by decide, haccesses⟩
  exact ⟨hwf, hf, verify_of_faithful golden trace settings hwf hf⟩

end Lockstep
