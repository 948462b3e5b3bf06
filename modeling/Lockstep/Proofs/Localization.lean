import Lockstep.Proofs.Completeness
import Lockstep.Proofs.Repetition

/-!
# Single faults

A device that runs the golden trace with one wrong observation is told of exactly that one: there is a
single mismatch, at the golden entry whose effect was wrong (`mismatches_of_single_fault`).

The trace is cut at that entry. Before it the run is that of a faithful device, and it arrives with the
streams that the entry would have met without the fault (`Run.exists_after`). The entry itself is served
with the wrong effect; but it takes no more and no less than the right one would have taken, and the
register file follows the golden trace, so behind it the run is that of a faithful device again
(`verify_of_fault`).
-/

namespace Lockstep

/-! ## Records that differ in one field -/

namespace Record

theorem firstDifference?_regValue (fetch : Fetch) (write : RegisterWrite) {value : UInt32}
    (hne : value ≠ write.value) :
    (Record.of fetch (.ofWrite write)).firstDifference?
      (Record.of fetch (.ofWrite { write with value })) = some .regValue := by
  simp [firstDifference?, placeDifference?, Record.of, Record.empty, Effect.ofWrite, hne.symm]

theorem firstDifference?_memValue (fetch : Fetch) (address : UInt32) {value other : UInt32}
    (hne : other ≠ value) :
    (Record.of fetch (.ofStore address value)).firstDifference?
      (Record.of fetch (.ofStore address other)) = some .memValue := by
  simp [firstDifference?, placeDifference?, Record.of, Record.empty, Effect.ofStore, hne.symm]

theorem firstDifference?_memAddr (fetch : Fetch) {address other : UInt32} (value : UInt32)
    (hne : other ≠ address) :
    (Record.of fetch (.ofStore address value)).firstDifference?
      (Record.of fetch (.ofStore other value)) = some .memAddr := by
  simp [firstDifference?, placeDifference?, Record.of, Record.empty, Effect.ofStore, hne.symm]

end Record

theorem pairMismatches_of_firstDifference? {settings : Settings} {index : Nat} {golden : GoldenEntry}
    {device : ReconciledEntry} {kind : MismatchKind}
    (h : (golden.normalized settings).firstDifference? device.record = some kind) :
    pairMismatches settings index golden device =
      [{ index, kind, golden := golden.normalized settings, device := device.record }] := by
  rw [pairMismatches, h]
  rfl

/-! ## Cutting the streams -/

theorem changes_append (file : RegisterFile) (before after : List GoldenEntry) :
    changes file (before ++ after) =
      changes file before ++ changes (before.foldl RegisterFile.follow file) after := by
  induction before generalizing file with
  | nil => rfl
  | cons golden before ih =>
      rw [List.cons_append, changes, ih, changes, List.append_assoc, List.foldl_cons]

namespace ShowsAccesses

variable {settings : Settings} {before after : List GoldenEntry} {accesses : List MemoryAccess}

theorem of_append (h : ShowsAccesses settings (before ++ after) accesses) :
    ShowsAccesses settings before accesses ∧
      ShowsAccesses settings after (accesses.drop (before.countP (·.instr.isStore))) := by
  unfold ShowsAccesses at h ⊢
  rw [List.filter_append] at h
  constructor
  · intro j entry hj
    obtain ⟨hlt, -⟩ := List.getElem?_eq_some_iff.1 hj
    apply h
    rw [List.getElem?_append_left hlt]
    exact hj
  · intro j entry hj
    rw [List.getElem?_drop, List.countP_eq_length_filter]
    apply h
    rw [List.getElem?_append_right (Nat.le_add_right _ _), Nat.add_sub_cancel_left]
    exact hj

/-- Each store has its access. -/
theorem exists_shownBy {golden : GoldenEntry}
    (h : ShowsAccesses settings (before ++ golden :: after) accesses)
    (hs : golden.instr.isStore = true) :
    ∃ access, accesses[before.countP (·.instr.isStore)]? = some access ∧
      golden.ShownBy settings access := by
  obtain ⟨-, hfrom⟩ := h.of_append
  obtain ⟨access, later, hdrop, hshown, -⟩ := (cons_iff_of_isStore hs).1 hfrom
  refine ⟨access, ?_, hshown⟩
  rw [← List.head?_drop, hdrop]
  rfl

/-- An access behind those of the stores may be any other. -/
theorem set (h : ShowsAccesses settings before accesses) {place : Nat}
    (hplace : before.countP (·.instr.isStore) ≤ place) (access : MemoryAccess) :
    ShowsAccesses settings before (accesses.set place access) := by
  intro j entry hj
  obtain ⟨hlt, -⟩ := List.getElem?_eq_some_iff.1 hj
  rw [List.countP_eq_length_filter] at hplace
  have hne : place ≠ j := by omega
  rw [List.getElem?_set_ne hne]
  exact h j entry hj

end ShowsAccesses

theorem GoldenEntry.ShownBy.narrow_eq {settings : Settings} {entry : GoldenEntry}
    {access : MemoryAccess} (h : entry.ShownBy settings access) {width : StoreWidth}
    {address value : UInt32} (hcat : entry.instr.category = .store width)
    (haddress : entry.memAddr = some address) (hvalue : entry.memVal = some value) :
    width.narrow access.raw address = value := by
  obtain ⟨width', address', value', hcat', haddress', hvalue', -, hnarrow⟩ := h
  obtain rfl : width = width' := Category.store.inj (hcat.symm.trans hcat')
  obtain rfl : address = address' := Option.some.inj (haddress.symm.trans haddress')
  obtain rfl : value = value' := Option.some.inj (hvalue.symm.trans hvalue')
  exact hnarrow

/-! ## One wrong entry -/

/-- An entry with a register write demands a commit. -/
theorem GoldenEntry.WellFormed.exists_demand_eq_commit {entry : GoldenEntry} {write : RegisterWrite}
    (h : entry.WellFormed) (hw : entry.registerWrite? = some write) :
    ∃ mayReorder, entry.instr.demand = .commit mayReorder ∧
      1 ≤ write.reg.toNat ∧ write.reg.toNat < registerCount ∧ entry.memVal = none := by
  have hwrites : ¬ entry.WritesNoRegister := by
    intro hn
    rw [registerWrite?_eq_none hn] at hw
    cases hw
  cases hd : entry.instr.demand with
  | commit mayReorder =>
      obtain ⟨⟨other, ho, hpos, hlt⟩, hv⟩ := h.carries hd
      obtain rfl := Option.some.inj (ho.symm.trans hw)
      exact ⟨mayReorder, rfl, hpos, hlt, hv⟩
  | access width => exact absurd (h.carries hd).1 hwrites
  | nothing => exact absurd (h.carries hd).1 hwrites
  | unknown => exact (h.carries hd).elim

/-- The commit of a fresh write stands where the changes before it end. -/
theorem exists_commits_behind {reset : UInt32} {before after : List GoldenEntry} {golden : GoldenEntry}
    {write : RegisterWrite} {commits : List RegisterWrite} (hwf : golden.WellFormed)
    (hw : golden.registerWrite? = some write) (hrepeats : ¬ Repeats reset before write)
    (h : changes (.filled reset) (before ++ golden :: after) <+: commits) :
    ∃ later, changes (.filled reset) before ++ write :: later = commits ∧
      changes ((before.foldl RegisterFile.follow (.filled reset)).write write) after <+: later := by
  obtain ⟨-, -, hpos, hlt, -⟩ := hwf.exists_demand_eq_commit hw
  have hchanges := Reconciliation.write_ne_of_fresh (repeatedWrite?_after_eq_none hw hrepeats) hw hpos hlt
  obtain ⟨tail, htail⟩ := h
  rw [changes_append, changes_cons_of_write_ne hw hchanges, List.append_assoc, List.cons_append]
    at htail
  exact ⟨_, htail, List.prefix_append _ tail⟩

theorem not_mem_take_of_getElem? {earlier later : List RegisterWrite} {write commit : RegisterWrite}
    {window : Nat}
    (h : ∀ j, earlier.length < j → j < earlier.length + window →
      (earlier ++ commit :: later)[j]? ≠ some write) :
    write ∉ later.take (window - 1) := by
  intro hmem
  obtain ⟨k, hk⟩ := List.mem_iff_getElem?.1 hmem
  rw [List.getElem?_take] at hk
  split at hk
  · apply h (earlier.length + (k + 1)) (by omega) (by omega)
    rw [List.getElem?_append_right (Nat.le_add_right _ _), Nat.add_sub_cancel_left]
    exact hk
  · cases hk

/-- A wrong commit stays in front, if the window does not hold the right one. -/
theorem Reconciliation.promoted_of_absent {window : Nat} (mayReorder : Bool) {golden : GoldenEntry}
    {write commit : RegisterWrite} {later : List RegisterWrite}
    (hw : golden.registerWrite? = some write) (hne : commit ≠ write)
    (habsent : write ∉ later.take (window - 1)) :
    promoted window (expectedWrite? mayReorder golden) (commit :: later) = commit :: later := by
  cases mayReorder with
  | false => rfl
  | true =>
      have hwindow : write ∉ (commit :: later).take window := by
        cases window with
        | zero => exact List.not_mem_nil
        | succ window =>
            rw [List.take_succ_cons, List.mem_cons, not_or]
            exact ⟨hne.symm, habsent⟩
      have hsearch := Lookahead.search_eq_notFound_iff.2 hwindow
      rw [expectedWrite?, if_pos rfl, hw]
      simp only [promoted, Lookahead.promote, hsearch]

section fault

open Reconciliation

variable {settings : Settings} {before after : List GoldenEntry} {faulty : GoldenEntry}
  {trace : DeviceTrace}

/-- **One entry at a time.** If the streams are those of a faithful device before an entry and behind it,
then whatever the entry is served with, only that is compared with anything else than itself. -/
theorem verify_of_fault {entry : ReconciledEntry} {commits : List RegisterWrite}
    (hwf : ∀ golden ∈ before ++ faulty :: after, golden.WellFormed)
    (hfetches : ShowsFetches (before ++ faulty :: after) trace.fetches)
    (hcommits : changes (.filled settings.shadowResetValue) before ++ commits = trace.commits)
    (haccesses : ShowsAccesses settings before trace.accesses)
    (hretired : entry.speculativeFetch = false)
    (hserves : ∀ p : Progress,
      p.shadow = before.foldl RegisterFile.follow (.filled settings.shadowResetValue) →
      p.commits.pending = commits →
      p.accesses.pending = trace.accesses.drop (before.countP (·.instr.isStore)) →
      ∃ stats q, Serves settings faulty faulty.toFetch p entry stats q ∧
        ShowsAccesses settings after q.accesses.pending ∧
        changes q.shadow after <+: q.commits.pending) :
    (verify (before ++ faulty :: after) trace settings).reconciliation.outcome = .complete ∧
      (verify (before ++ faulty :: after) trace settings).mismatches =
        pairMismatches settings before.length faulty entry := by
  obtain ⟨hbefore, -, hafter⟩ : (∀ golden ∈ before, golden.WellFormed) ∧ faulty.WellFormed ∧
      ∀ golden ∈ after, golden.WellFormed := by
    rw [List.forall_mem_append, List.forall_mem_cons] at hwf
    exact hwf
  obtain ⟨p, r, hrun, hshadow, hfetches, hdrop, hpending, houtcome, hcompare⟩ :=
    (run_reconcile (before ++ faulty :: after) trace settings).exists_after
      (supply_of_changes settings.reorderWindow commits) hbefore hfetches haccesses hcommits
  obtain ⟨stats, q, serves, ha, hc⟩ := hserves p hshadow hpending.symm hdrop
  obtain ⟨skipped, later, aligns, hfetches⟩ := hfetches.exists_aligns
  -- There is one run only, so the rest of it goes on from where the wrong entry leaves the streams.
  have hlater := run_walk settings (0 + before.length + 1) after
    { q with fetches := { taken := p.fetches.taken + skipped.length + 1, pending := later } }
  obtain rfl := hrun.eq_walk.trans (Run.served aligns serves hlater).eq_walk.symm
  obtain ⟨hcomplete, hnil⟩ := hlater.complete_of_ready
    (supply_of_program_order settings.reorderWindow) hafter hfetches ha hc
  refine ⟨houtcome.trans hcomplete, hcompare.trans ?_⟩
  rw [retiredEntries_skipped, retiredEntries_singleton hretired, List.singleton_append,
    compareFrom_cons_cons, hnil, List.append_nil, Nat.zero_add]

/-- One wrong commit, that of a golden write which does not repeat. The right one must not stand behind it
in the window, or else it would be brought forward. -/
theorem verify_of_commit_fault (hwf : ∀ golden ∈ before ++ faulty :: after, golden.WellFormed)
    (hf : Faithful settings (before ++ faulty :: after) trace) {write commit : RegisterWrite}
    (hw : faulty.registerWrite? = some write)
    (hrepeats : ¬ Repeats settings.shadowResetValue before write) (hne : commit ≠ write)
    {place : Nat} (hplace : (changes (.filled settings.shadowResetValue) before).length = place)
    (hwindow : ∀ j, place < j → j < place + settings.reorderWindow → trace.commits[j]? ≠ some write) :
    trace.commits[place]? = some write ∧
      let v := verify (before ++ faulty :: after)
        { trace with commits := trace.commits.set place commit } settings
      v.reconciliation.outcome = .complete ∧
        v.mismatches = pairMismatches settings before.length faulty
          { toFetch := faulty.toFetch, toEffect := .ofWrite commit } := by
  have hfaulty : faulty.WellFormed := hwf faulty (List.mem_append_right _ List.mem_cons_self)
  obtain ⟨mayReorder, demand, -⟩ := hfaulty.exists_demand_eq_commit hw
  have hstore := Instruction.isStore_eq_false_of_commit demand
  obtain ⟨hbefore, hafter⟩ := hf.accesses.of_append
  obtain ⟨later, hstream, hlater⟩ := exists_commits_behind hfaulty hw hrepeats hf.commits
  subst hplace
  have hset : changes (.filled settings.shadowResetValue) before ++ commit :: later =
      trace.commits.set (changes (.filled settings.shadowResetValue) before).length commit := by
    rw [← hstream, List.set_append_right _ _ (Nat.le_refl _), Nat.sub_self, List.set_cons_zero]
  have habsent : write ∉ later.take (settings.reorderWindow - 1) := by
    rw [← hstream] at hwindow
    exact not_mem_take_of_getElem? hwindow
  refine ⟨?_, verify_of_fault hwf hf.fetches hset hbefore rfl ?_⟩
  · rw [← hstream, List.getElem?_append_right (Nat.le_refl _), Nat.sub_self, List.getElem?_cons_zero]
  · intro p hshadow hpending haccesses
    have hfresh : repeatedWrite? p.shadow faulty = none := by
      rw [hshadow]
      exact repeatedWrite?_after_eq_none hw hrepeats
    have hfront : promoted settings.reorderWindow (expectedWrite? mayReorder faulty)
        p.commits.pending = commit :: later := by
      rw [hpending]
      exact promoted_of_absent mayReorder hw hne habsent
    refine ⟨_, _, .observed demand hfresh hfront, ?_, ?_⟩
    · show ShowsAccesses settings after p.accesses.pending
      rw [haccesses]
      exact (ShowsAccesses.cons_iff_of_not_isStore hstore).1 hafter
    · show changes (p.shadow.follow faulty) after <+: later
      rw [RegisterFile.follow_of_some hw, hshadow]
      exact hlater

/-- One wrong access, that of a store. -/
theorem verify_of_access_fault (hwf : ∀ golden ∈ before ++ faulty :: after, golden.WellFormed)
    (hf : Faithful settings (before ++ faulty :: after) trace) {width : StoreWidth}
    (hcat : faulty.instr.category = .store width) {address : UInt32}
    (haddress : faulty.memAddr = some address) (access : MemoryAccess) :
    let v := verify (before ++ faulty :: after)
      { trace with
        accesses := trace.accesses.set (before.countP (·.instr.isStore)) access } settings
    v.reconciliation.outcome = .complete ∧
      v.mismatches = pairMismatches settings before.length faulty
        { toFetch := faulty.toFetch
          toEffect := .ofStore access.address (width.narrow access.raw address) } := by
  have hfaulty : faulty.WellFormed := hwf faulty (List.mem_append_right _ List.mem_cons_self)
  have hnone := GoldenEntry.registerWrite?_eq_none
    (hfaulty.carries (Instruction.demand_eq_access_iff.2 hcat)).1
  obtain ⟨hbefore, hfrom⟩ := hf.accesses.of_append
  obtain ⟨_, later, hdrop, -, hafter⟩ :=
    (ShowsAccesses.cons_iff_of_isStore (Instruction.isStore_of_category hcat)).1 hfrom
  obtain ⟨tail, htail⟩ := hf.commits
  rw [changes_append, List.append_assoc] at htail
  refine verify_of_fault hwf hf.fetches htail (hbefore.set (Nat.le_refl _) access) rfl ?_
  intro p hshadow hpending haccesses
  have hfront : p.accesses.pending = access :: later := by
    rw [haccesses, List.drop_set, if_neg (Nat.lt_irrefl _), Nat.sub_self, hdrop, List.set_cons_zero]
  have serves : Serves settings faulty faulty.toFetch p _ _ _ :=
    .stored (Instruction.demand_eq_access_iff.2 hcat) hfront
  rw [haddress, Option.getD_some] at serves
  refine ⟨_, _, serves, hafter, ?_⟩
  show changes p.shadow after <+: p.commits.pending
  rw [hpending, hshadow, changes_cons_of_none hnone]
  exact List.prefix_append _ tail

end fault

/-- **A single fault is found where it is.** The device runs a well-formed golden trace in program order,
but for one observation at the golden entry `i`. The verification is complete and finds one mismatch, at
`i`, which shows the wrong observation:

* a commit with a wrong value, if the right commit is not among those that the window holds behind it;
* an access with a wrong value in the bytes that the store wrote;
* an access at a wrong address. Its value is still that of the golden entry. -/
theorem mismatches_of_single_fault (golden : List GoldenEntry) (trace : DeviceTrace)
    (settings : Settings) (hwf : ∀ entry ∈ golden, entry.WellFormed)
    (hf : Faithful settings golden trace) (i : Nat) (entry : GoldenEntry)
    (hi : golden[i]? = some entry) :
    (∀ (write : RegisterWrite) (value : UInt32),
      Awaits settings.shadowResetValue golden i write → value ≠ write.value →
      let place := (changes (.filled settings.shadowResetValue) (golden.take i)).length
      (∀ j, place < j → j < place + settings.reorderWindow → trace.commits[j]? ≠ some write) →
      let v := verify golden
        { trace with commits := trace.commits.set place { write with value } } settings
      trace.commits[place]? = some write ∧ v.reconciliation.outcome = .complete ∧
        v.mismatches = [{
          index := i
          kind := .regValue
          golden := entry.normalized settings
          device := Record.of entry.toFetch (.ofWrite { write with value }) }]) ∧
    ∀ (width : StoreWidth) (address value : UInt32), entry.instr.category = .store width →
      entry.memAddr = some address → entry.memVal = some value →
      let place := (golden.take i).countP (·.instr.isStore)
      ∃ access, trace.accesses[place]? = some access ∧ width.narrow access.raw address = value ∧
        (∀ raw, width.narrow raw address ≠ value →
          let v := verify golden
            { trace with accesses := trace.accesses.set place { access with raw } } settings
          v.reconciliation.outcome = .complete ∧
            v.mismatches = [{
              index := i
              kind := .memValue
              golden := entry.normalized settings
              device := Record.of entry.toFetch
                (.ofStore access.address (width.narrow raw address)) }]) ∧
        ∀ other, other ≠ access.address →
          let v := verify golden
            { trace with accesses := trace.accesses.set place { access with address := other } }
            settings
          v.reconciliation.outcome = .complete ∧
            v.mismatches = [{
              index := i
              kind := .memAddr
              golden := entry.normalized settings
              device := Record.of entry.toFetch (.ofStore other value) }] := by
  obtain ⟨before, after, rfl, rfl⟩ :
      ∃ before after, golden = before ++ entry :: after ∧ before.length = i := by
    obtain ⟨hlt, rfl⟩ := List.getElem?_eq_some_iff.1 hi
    refine ⟨golden.take i, golden.drop (i + 1), ?_, List.length_take_of_le (Nat.le_of_lt hlt)⟩
    rw [← List.drop_eq_getElem_cons hlt, List.take_append_drop]
  have hentry : entry.WellFormed := hwf entry (List.mem_append_right _ List.mem_cons_self)
  rw [List.take_left]
  constructor
  · intro write value ⟨other, ho, hw, hrepeats⟩ hne place hwindow
    obtain rfl : entry = other := Option.some.inj (hi.symm.trans ho)
    rw [List.take_left] at hrepeats
    have hcommit : { write with value } ≠ write := fun h => hne (congrArg RegisterWrite.value h)
    obtain ⟨hget, hcomplete, hmismatches⟩ :=
      verify_of_commit_fault hwf hf hw hrepeats hcommit rfl hwindow
    refine ⟨hget, hcomplete, hmismatches.trans (pairMismatches_of_firstDifference? ?_)⟩
    obtain ⟨-, -, -, -, hv⟩ := hentry.exists_demand_eq_commit hw
    rw [GoldenEntry.normalized_of_registerWrite? hw hv]
    exact Record.firstDifference?_regValue entry.toFetch write hne
  · intro width address value hcat haddress hvalue place
    have hstore := Instruction.isStore_of_category hcat
    obtain ⟨access, hget, hshown⟩ := hf.accesses.exists_shownBy hstore
    have hnarrow := hshown.narrow_eq hcat haddress hvalue
    have hnormalized : entry.normalized settings =
        Record.of entry.toFetch (.ofStore access.address value) := by
      obtain ⟨hn, -⟩ := hentry.carries (Instruction.demand_eq_access_iff.2 hcat)
      rw [hshown.normalized hn hcat, haddress, Option.getD_some, hnarrow]
    refine ⟨access, hget, hnarrow, ?_, ?_⟩
    · intro raw hne
      obtain ⟨hcomplete, hmismatches⟩ :=
        verify_of_access_fault hwf hf hcat haddress { access with raw }
      refine ⟨hcomplete, hmismatches.trans (pairMismatches_of_firstDifference? ?_)⟩
      rw [hnormalized]
      exact Record.firstDifference?_memValue entry.toFetch access.address hne
    · intro other hne
      obtain ⟨hcomplete, hmismatches⟩ :=
        verify_of_access_fault hwf hf hcat haddress { access with address := other }
      rw [hnarrow] at hmismatches
      refine ⟨hcomplete, hmismatches.trans (pairMismatches_of_firstDifference? ?_)⟩
      rw [hnormalized]
      exact Record.firstDifference?_memAddr entry.toFetch value hne

/-- A constant, a byte store of it, a load that finds it again, and a call. The commit of the constant has a
wrong value, or the store a wrong byte, or a wrong address. -/
theorem mismatches_of_single_fault_call :
    let golden : List GoldenEntry := [
      { pc := 0x100, instr := 0x00500593, targetReg := some 11, regVal := some 5 },
      { pc := 0x104, instr := 0x00b601a3, memAddr := some 0x2003, memVal := some 5 },
      { pc := 0x108, instr := 0x00060583, targetReg := some 11, regVal := some 5,
        memAddr := some 0x2003 },
      { pc := 0x10c, instr := 0x040000ef, targetReg := some 1, regVal := some 0x110 }]
    let trace : DeviceTrace := {
      fetches := golden.map (·.toFetch)
      commits := [⟨11, 5⟩, ⟨1, 0x110⟩]
      accesses := [⟨0x2000, 0x05000000⟩] }
    let settings : Settings := { wordBoundaryStores := true }
    let found (trace : DeviceTrace) :=
      (verify golden trace settings).mismatches.map fun m => (m.index, m.kind, m.device.toEffect)
    (∀ entry ∈ golden, entry.WellFormed) ∧ Faithful settings golden trace ∧
      found { trace with commits := trace.commits.set 0 ⟨11, 6⟩ } =
        [(0, .regValue, .ofWrite ⟨11, 6⟩)] ∧
      found { trace with accesses := trace.accesses.set 0 ⟨0x2000, 0x06000000⟩ } =
        [(1, .memValue, .ofStore 0x2000 6)] ∧
      found { trace with accesses := trace.accesses.set 0 ⟨0x2004, 0x05000000⟩ } =
        [(1, .memAddr, .ofStore 0x2004 5)] := by
  intro golden trace settings found
  have hwf : ∀ entry ∈ golden, entry.WellFormed := by decide
  have hfetches : ShowsFetches golden trace.fetches := by
    repeat refine @ShowsFetches.next _ _ [] _ nofun ?_
    exact .done []
  have haccesses : ShowsAccesses settings golden trace.accesses := by
    refine (ShowsAccesses.cons_iff_of_not_isStore (by decide)).2 ?_
    refine (ShowsAccesses.cons_iff_of_isStore (by decide)).2 ⟨_, _, rfl, ?_, ?_⟩
    · exact ⟨.byte, 0x2003, 5, by decide, rfl, rfl, by decide, by decide⟩
    · refine (ShowsAccesses.cons_iff_of_not_isStore (by decide)).2 ?_
      refine (ShowsAccesses.cons_iff_of_not_isStore (by decide)).2 ?_
      nofun
  have hf : Faithful settings golden trace := ⟨hfetches, by decide, haccesses⟩
  obtain ⟨hcommit, -⟩ := mismatches_of_single_fault golden trace settings hwf hf 0 _ rfl
  obtain ⟨-, haccess⟩ := mismatches_of_single_fault golden trace settings hwf hf 1 _ rfl
  obtain ⟨-, -, hwrong⟩ := hcommit ⟨11, 5⟩ 6 ⟨_, rfl, rfl, by decide⟩ (by decide) (by
    intro j hlow hhigh
    have hplace : 0 < j ∧ j < 0 + 4 := ⟨hlow, hhigh⟩
    obtain rfl | rfl | rfl : j = 1 ∨ j = 2 ∨ j = 3 := by omega
    all_goals decide)
  obtain ⟨access, hget, -, hvalue, haddress⟩ := haccess .byte 0x2003 5 (by decide) rfl rfl
  obtain rfl : ⟨0x2000, 0x05000000⟩ = access := Option.some.inj hget
  refine ⟨hwf, hf, ?_, ?_, ?_⟩
  · exact congrArg (List.map _) hwrong
  · exact congrArg (List.map _) (hvalue 0x06000000 (by decide)).2
  · exact congrArg (List.map _) (haddress 0x2004 (by decide)).2

end Lockstep
