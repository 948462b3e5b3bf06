import Lockstep.Mismatch
import Lockstep.Proofs.Run

/-!
# What a device shows of a golden trace

The second side of the statements about verification: what the three streams of a device hold if it
ran the golden trace, said without the reconciliation.

* `ShowsFetches`: each golden entry is fetched in order, with other fetches before it.
* `changes`: the golden writes that change the register file. A device shows these and no others.
* `ShowsAccesses`: each golden store is seen on the bus, in order.

`Faithful` puts the three together. Each stream may go on after the golden trace has ended.
-/

namespace Lockstep

/-! ## Instruction words -/

namespace Instruction

theorem isStore_of_category {word : Instruction} {width : StoreWidth}
    (h : word.category = .store width) : word.isStore = true := by
  unfold category at h
  unfold isStore
  by_cases hs : word.opcode = Opcode.store
  · exact beq_iff_eq.2 hs
  · rw [if_neg hs] at h
    repeat' split at h
    all_goals cases h

theorem category_of_isStore {word : Instruction} (h : word.isStore = true) :
    (∃ width, word.category = .store width) ∨ word.category = .unknown := by
  have hs : word.opcode = Opcode.store := beq_iff_eq.1 h
  have hl : word.opcode ≠ Opcode.load := by rw [hs]; decide
  unfold category
  rw [if_neg hl, if_pos hs]
  cases storeWidth? word.funct3 with
  | none => exact .inr rfl
  | some width => exact .inl ⟨width, rfl⟩

theorem isLoad_of_store {word : Instruction} (h : word.isStore = true) : word.isLoad = false := by
  have hs : word.opcode = Opcode.store := beq_iff_eq.1 h
  unfold isLoad
  rw [hs]
  decide

/-- What demands no access is no store. -/
theorem isStore_eq_false {word : Instruction} {demand : Demand} (h : word.demand = demand)
    (hu : demand ≠ .unknown) (ha : ∀ width, demand ≠ .access width) : word.isStore = false := by
  rw [Bool.eq_false_iff]
  intro hs
  rcases category_of_isStore hs with ⟨width, hc⟩ | hc
  · exact ha width (h.symm.trans (demand_eq_access_iff.2 hc))
  · exact hu (h.symm.trans (demand_eq_unknown_iff.2 hc))

theorem isStore_eq_false_of_commit {word : Instruction} {mayReorder : Bool}
    (h : word.demand = .commit mayReorder) : word.isStore = false :=
  isStore_eq_false h nofun nofun

theorem isStore_eq_false_of_nothing {word : Instruction} (h : word.demand = .nothing) :
    word.isStore = false :=
  isStore_eq_false h nofun nofun

end Instruction

/-! ## Golden entries -/

namespace GoldenEntry

/-- The entry carries no register. -/
def WritesNoRegister (entry : GoldenEntry) : Prop :=
  entry.targetReg = none ∧ entry.regVal = none

/-- The entry carries a write to a register other than register zero. -/
def WritesRegister (entry : GoldenEntry) : Prop :=
  ∃ write ∈ entry.registerWrite?, 1 ≤ write.reg.toNat ∧ write.reg.toNat < registerCount

/-- The entry carries the effects of an instruction with the given demand. Every entry but that of a
store may carry an address without a value. -/
def Carries (entry : GoldenEntry) : Demand → Prop
  | .commit _ => entry.WritesRegister ∧ entry.memVal = none
  | .access _ =>
    entry.WritesNoRegister ∧ entry.memAddr.isSome = true ∧ entry.memVal.isSome = true
  | .nothing => entry.WritesNoRegister ∧ entry.memVal = none
  | .unknown => False

/-- The instruction is recognized, and the entry carries its effects. -/
def WellFormed (entry : GoldenEntry) : Prop := entry.Carries entry.instr.demand

instance (entry : GoldenEntry) : Decidable entry.WritesNoRegister :=
  inferInstanceAs (Decidable (_ ∧ _))

instance (entry : GoldenEntry) : Decidable entry.WritesRegister :=
  inferInstanceAs (Decidable (∃ write ∈ entry.registerWrite?, _ ∧ _))

instance (entry : GoldenEntry) : (demand : Demand) → Decidable (entry.Carries demand)
  | .commit _ => inferInstanceAs (Decidable (_ ∧ _))
  | .access _ => inferInstanceAs (Decidable (_ ∧ _ ∧ _))
  | .nothing => inferInstanceAs (Decidable (_ ∧ _))
  | .unknown => inferInstanceAs (Decidable False)

instance (entry : GoldenEntry) : Decidable entry.WellFormed :=
  inferInstanceAs (Decidable (entry.Carries entry.instr.demand))

theorem WellFormed.carries {entry : GoldenEntry} {demand : Demand} (h : entry.WellFormed)
    (hd : entry.instr.demand = demand) : entry.Carries demand :=
  hd ▸ h

theorem registerWrite?_eq_none {entry : GoldenEntry} (h : entry.WritesNoRegister) :
    entry.registerWrite? = none := by
  unfold registerWrite?
  rw [h.1]

theorem registerWrite?_eq_some_iff {entry : GoldenEntry} {write : RegisterWrite} :
    entry.registerWrite? = some write ↔
      entry.targetReg = some write.reg ∧ entry.regVal = some write.value := by
  unfold registerWrite?
  cases entry.targetReg with
  | none => simp
  | some reg =>
      cases entry.regVal with
      | none => simp
      | some value =>
          obtain ⟨wreg, wvalue⟩ := write
          simp

end GoldenEntry

/-- The address that the device shows of a store. -/
def Settings.shownAddress (settings : Settings) (address : UInt32) : UInt32 :=
  if settings.wordBoundaryStores then address &&& ~~~3 else address

namespace GoldenEntry

/-- An entry that writes no memory is compared without an address. -/
theorem normalized_of_memVal_eq_none {settings : Settings} {entry : GoldenEntry}
    (h : entry.memVal = none) :
    entry.normalized settings =
      Record.of entry.toFetch
        { targetReg := entry.targetReg, regVal := entry.regVal, memVal := entry.memVal } := by
  have hseen : (if entry.instr.isLoad || entry.isMemoryRead then none else entry.memAddr) = none := by
    unfold isMemoryRead
    rw [h]
    cases entry.memAddr <;> simp
  unfold normalized
  simp only [record, Record.of, hseen]
  simp

/-- A store is compared with the address that the device shows. -/
theorem normalized_of_isStore {settings : Settings} {entry : GoldenEntry}
    (hs : entry.instr.isStore = true) (hv : entry.memVal.isSome = true) :
    entry.normalized settings =
      Record.of entry.toFetch
        { targetReg := entry.targetReg
          regVal := entry.regVal
          memAddr := entry.memAddr.map settings.shownAddress
          memVal := entry.memVal } := by
  have hseen : (entry.instr.isLoad || entry.isMemoryRead) = false := by
    unfold isMemoryRead
    rw [Instruction.isLoad_of_store hs, Option.isNone_eq_false_iff.2 hv]
    simp
  unfold normalized Settings.shownAddress
  simp only [record, Record.of, hseen, hs]
  cases settings.wordBoundaryStores <;> simp

end GoldenEntry

/-! ## The three streams -/

/-- The fetches run through a golden trace: before each golden entry comes any number of fetches from
other places than the awaited one. -/
inductive ShowsFetches : List GoldenEntry → List Fetch → Prop where
  | done (later : List Fetch) : ShowsFetches [] later
  | next {golden : GoldenEntry} {rest : List GoldenEntry} {skipped later : List Fetch}
      (skipped_ne : ∀ f ∈ skipped, f.pc ≠ golden.pc) (shows : ShowsFetches rest later) :
      ShowsFetches (golden :: rest) (skipped ++ golden.toFetch :: later)

/-- The golden writes that change the register file, in program order. -/
def changes (file : RegisterFile) : List GoldenEntry → List RegisterWrite
  | [] => []
  | golden :: rest =>
    (golden.registerWrite?.filter fun write => file.write write ≠ file).toList ++
      changes (file.follow golden) rest

/-- The access is what the device shows of a golden store: its address, and a bus word with the value
in the lane of the golden address. -/
def GoldenEntry.ShownBy (settings : Settings) (golden : GoldenEntry) (access : MemoryAccess) : Prop :=
  ∃ width address value, golden.instr.category = .store width ∧
    golden.memAddr = some address ∧ golden.memVal = some value ∧
    access.address = settings.shownAddress address ∧ width.narrow access.raw address = value

/-- The `j`-th access is what the device shows of the `j`-th golden store. -/
def ShowsAccesses (settings : Settings) (golden : List GoldenEntry) (accesses : List MemoryAccess) :
    Prop :=
  ∀ (j : Nat) (entry : GoldenEntry), (golden.filter (·.instr.isStore))[j]? = some entry →
    ∃ access, accesses[j]? = some access ∧ entry.ShownBy settings access

/-- The device ran the golden trace, and its register commits retired in program order. -/
structure Faithful (settings : Settings) (golden : List GoldenEntry) (trace : DeviceTrace) : Prop where
  fetches : ShowsFetches golden trace.fetches
  commits : changes (.filled settings.shadowResetValue) golden <+: trace.commits
  accesses : ShowsAccesses settings golden trace.accesses

/-! ## One entry of a stream -/

namespace Reconciliation

theorem Aligns.unique {golden : GoldenEntry} {pending s₁ s₂ l₁ l₂ : List Fetch} {f₁ f₂ : Fetch}
    (h₁ : Aligns golden pending s₁ f₁ l₁) (h₂ : Aligns golden pending s₂ f₂ l₂) :
    s₁ = s₂ ∧ f₁ = f₂ ∧ l₁ = l₂ := by
  have e₁ : (Feed.ofList pending).takeWhile (·.pc != golden.pc) = _ := takeWhile_of_aligns h₁
  have e₂ : (Feed.ofList pending).takeWhile (·.pc != golden.pc) = _ := takeWhile_of_aligns h₂
  have heq := e₁.symm.trans e₂
  simp only [Prod.mk.injEq, Feed.mk.injEq, List.cons.injEq] at heq
  obtain ⟨hs, -, hf, hl⟩ := heq
  exact ⟨hs, hf, hl⟩

end Reconciliation

namespace ShowsFetches

variable {golden : GoldenEntry} {rest : List GoldenEntry} {pending skipped later : List Fetch}

theorem exists_aligns (h : ShowsFetches (golden :: rest) pending) :
    ∃ skipped later, Reconciliation.Aligns golden pending skipped golden.toFetch later ∧
      ShowsFetches rest later := by
  cases h with
  | next skipped_ne shows => exact ⟨_, _, ⟨rfl, skipped_ne, rfl⟩, shows⟩

/-- The fetch that aligns is that of the golden entry. -/
theorem of_aligns (h : ShowsFetches (golden :: rest) pending) {fetch : Fetch}
    (ha : Reconciliation.Aligns golden pending skipped fetch later) :
    fetch = golden.toFetch ∧ ShowsFetches rest later := by
  obtain ⟨_, _, ha', hrest⟩ := h.exists_aligns
  obtain ⟨-, rfl, rfl⟩ := ha.unique ha'
  exact ⟨rfl, hrest⟩

end ShowsFetches

theorem RegisterFile.repeats_iff_write_eq {file : RegisterFile} {write : RegisterWrite}
    (hpos : 1 ≤ write.reg.toNat) (hlt : write.reg.toNat < registerCount) :
    file.repeats write = true ↔ file.write write = file := by
  constructor
  · exact RegisterFile.write_of_repeats
  · intro h
    have hv : (file.write write).value? write.reg = some write.value := by
      rw [RegisterFile.value?_write, if_pos ⟨rfl, hlt⟩]
    have hne : write.reg ≠ 0 := by
      intro h0
      rw [h0] at hpos
      exact absurd hpos (by decide)
    rw [h] at hv
    simp [RegisterFile.repeats, hv, hne]

/-- A write in range that does not repeat changes the register file. -/
theorem Reconciliation.write_ne_of_fresh {file : RegisterFile} {golden : GoldenEntry}
    {write : RegisterWrite} (hfresh : repeatedWrite? file golden = none)
    (hw : golden.registerWrite? = some write) (hpos : 1 ≤ write.reg.toNat)
    (hlt : write.reg.toNat < registerCount) : file.write write ≠ file := by
  intro heq
  have hrepeats := (RegisterFile.repeats_iff_write_eq hpos hlt).2 heq
  rw [repeatedWrite?_eq_some_iff.2 ⟨hw, hrepeats⟩] at hfresh
  cases hfresh

section changes

variable {file : RegisterFile} {golden : GoldenEntry} {rest : List GoldenEntry}

theorem changes_cons_of_none (h : golden.registerWrite? = none) :
    changes file (golden :: rest) = changes file rest := by
  rw [changes, RegisterFile.follow_of_none h, h]
  rfl

theorem changes_cons_of_write_eq {write : RegisterWrite} (h : golden.registerWrite? = some write)
    (hw : file.write write = file) : changes file (golden :: rest) = changes file rest := by
  rw [changes, RegisterFile.follow_of_some h, h]
  simp [hw]

theorem changes_cons_of_write_ne {write : RegisterWrite} (h : golden.registerWrite? = some write)
    (hw : file.write write ≠ file) :
    changes file (golden :: rest) = write :: changes (file.write write) rest := by
  rw [changes, RegisterFile.follow_of_some h, h]
  simp [Option.filter, hw]

end changes

namespace ShowsAccesses

variable {settings : Settings} {golden : GoldenEntry} {rest : List GoldenEntry}

theorem cons_iff_of_not_isStore (h : golden.instr.isStore = false) {accesses : List MemoryAccess} :
    ShowsAccesses settings (golden :: rest) accesses ↔ ShowsAccesses settings rest accesses := by
  unfold ShowsAccesses
  rw [List.filter_cons_of_neg (by simp [h])]

theorem cons_iff_of_isStore (h : golden.instr.isStore = true) {accesses : List MemoryAccess} :
    ShowsAccesses settings (golden :: rest) accesses ↔
      ∃ access later, accesses = access :: later ∧ golden.ShownBy settings access ∧
        ShowsAccesses settings rest later := by
  unfold ShowsAccesses
  rw [List.filter_cons_of_pos (by simp [h])]
  constructor
  · intro hs
    obtain ⟨access, ha, hshown⟩ := hs 0 golden rfl
    cases accesses with
    | nil => cases ha
    | cons first later =>
        cases ha
        exact ⟨_, later, rfl, hshown, fun j entry he => hs (j + 1) entry he⟩
  · rintro ⟨access, later, rfl, hshown, hs⟩ j entry he
    cases j with
    | zero =>
        cases he
        exact ⟨access, rfl, hshown⟩
    | succ j => exact hs j entry he

end ShowsAccesses

end Lockstep
