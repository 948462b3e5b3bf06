import Lockstep.Proofs.Bookkeeping
import Lockstep.Proofs.Lanes
import Lockstep.Proofs.Speculation

/-!
# The shape of reconciled entries

Which effects an entry shows is told by two things alone: whether its fetch was taken for a golden entry, and
what its own instruction word demands (`ReconciledEntry.Shaped`). The golden entry itself plays no part in it,
nor does the way in which the run goes on or ends (`entries_shaped`).
-/

namespace Lockstep

/-- The `k`-th of the entries of a run was taken for a golden entry: it is from the program counter of the
one that is awaited there. -/
def Consumes (golden : List GoldenEntry) (entries : List ReconciledEntry) (k : Nat) : Prop :=
  ∃ expected entry, awaited? golden (entries.take k) = some expected ∧ entries[k]? = some entry ∧
    entry.pc = expected.pc

/-- The entry shows what its instruction word demands, if it `consumed` a golden entry, and nothing
otherwise. -/
structure ReconciledEntry.Shaped (entry : ReconciledEntry) (consumed : Prop) : Prop where
  register : entry.targetReg.isSome = true ↔
    consumed ∧ ∃ mayReorder, entry.instr.demand = .commit mayReorder
  value : entry.regVal.isSome = entry.targetReg.isSome
  address : entry.memAddr.isSome = true ↔ consumed ∧ ∃ width, entry.instr.demand = .access width
  stored : entry.memVal.isSome = entry.memAddr.isSome
  narrow : ∀ width value, entry.instr.demand = .access width → entry.memVal = some value →
    value.toNat < 2 ^ (8 * width.bytes)
  speculative : entry.speculativeFetch = true ↔ ¬ consumed ∨ entry.instr.demand = .unknown
  bare : entry.speculativeFetch = true → entry.toEffect = .none ∧ entry.speculativeCommit = false

/-- No instruction demands a commit and an access. -/
theorem ReconciledEntry.Shaped.apart {entry : ReconciledEntry} {consumed : Prop}
    (h : entry.Shaped consumed) : ¬ (entry.targetReg.isSome = true ∧ entry.memAddr.isSome = true) := by
  rintro ⟨hreg, haddr⟩
  obtain ⟨-, mayReorder, hcommit⟩ := h.register.1 hreg
  obtain ⟨-, width, haccess⟩ := h.address.1 haddr
  cases hcommit.symm.trans haccess

namespace Reconciliation

variable {settings : Settings} {golden : GoldenEntry} {rest : List GoldenEntry} {fetch : Fetch}
  {p q : Progress} {skipped later : List Fetch} {entry : ReconciledEntry} {stats : Stats}
  {entries : List ReconciledEntry}

/-! ## Which entries consume a golden one -/

theorem getElem?_skipped {k : Nat} (hk : k < skipped.length) (entries : List ReconciledEntry) :
    (skipped.map speculative ++ entries)[k]? = skipped[k]?.map speculative := by
  rw [List.getElem?_append_left (by rw [List.length_map]; exact hk), List.getElem?_map]

theorem getElem?_aligned (skipped : List Fetch) (entry : ReconciledEntry)
    (entries : List ReconciledEntry) :
    (skipped.map speculative ++ entry :: entries)[skipped.length]? = some entry := by
  have hlength : (skipped.map speculative).length ≤ skipped.length := by rw [List.length_map]
  rw [List.getElem?_append_right hlength, List.length_map, Nat.sub_self, List.getElem?_cons_zero]

theorem getElem?_behind (skipped : List Fetch) (entry : ReconciledEntry)
    (entries : List ReconciledEntry) (k : Nat) :
    (skipped.map speculative ++ entry :: entries)[skipped.length + 1 + k]? = entries[k]? := by
  have hlength : (skipped.map speculative).length ≤ skipped.length + 1 + k := by
    rw [List.length_map]
    omega
  rw [List.getElem?_append_right hlength, List.length_map, Nat.add_assoc, Nat.add_sub_cancel_left,
    Nat.add_comm 1 k, List.getElem?_cons_succ]

theorem not_consumes_skipped (hskipped : ∀ f ∈ skipped, f.pc ≠ golden.pc) {k : Nat}
    (hk : k < skipped.length) (entries : List ReconciledEntry) :
    ¬ Consumes (golden :: rest) (skipped.map speculative ++ entries) k := by
  rintro ⟨expected, entry, hawaited, hentry, hpc⟩
  rw [awaited?_skipped hskipped (Nat.le_of_lt hk)] at hawaited
  obtain rfl : golden = expected := Option.some.inj hawaited
  rw [getElem?_skipped hk] at hentry
  obtain ⟨f, hf, rfl⟩ := Option.map_eq_some_iff.1 hentry
  exact hskipped f (List.mem_of_getElem? hf) hpc

theorem consumes_aligned (aligns : Aligns golden p.fetches.pending skipped fetch later)
    (serves : Serves settings golden fetch p entry stats q) (entries : List ReconciledEntry) :
    Consumes (golden :: rest) (skipped.map speculative ++ entry :: entries) skipped.length := by
  have hpc : entry.pc = golden.pc := (congrArg Fetch.pc serves.toFetch_eq).trans aligns.pc_eq
  exact ⟨golden, entry, awaited?_skipped aligns.skipped_ne (Nat.le_refl _) _,
    getElem?_aligned skipped entry entries, hpc⟩

theorem consumes_behind (aligns : Aligns golden p.fetches.pending skipped fetch later)
    (serves : Serves settings golden fetch p entry stats q) (entries : List ReconciledEntry)
    (k : Nat) :
    Consumes (golden :: rest) (skipped.map speculative ++ entry :: entries)
        (skipped.length + 1 + k) = Consumes rest entries k := by
  unfold Consumes
  rw [awaited?_served aligns serves, getElem?_behind]

/-! ## One golden entry -/

/-- What was skipped shows nothing. -/
theorem shaped_speculative {consumed : Prop} (h : ¬ consumed) (fetch : Fetch) :
    (speculative fetch).Shaped consumed := by
  constructor <;> simp [h, speculative, ReconciledEntry.ofFetch, Effect.none]

theorem shaped_skipped (hskipped : ∀ f ∈ skipped, f.pc ≠ golden.pc) {k : Nat}
    (hk : k < skipped.length)
    (hentry : (skipped.map speculative ++ entries)[k]? = some entry) :
    entry.Shaped (Consumes (golden :: rest) (skipped.map speculative ++ entries) k) := by
  have hnot : ¬ Consumes (golden :: rest) (skipped.map speculative ++ entries) k :=
    not_consumes_skipped hskipped hk entries
  rw [getElem?_skipped hk] at hentry
  obtain ⟨f, -, rfl⟩ := Option.map_eq_some_iff.1 hentry
  exact shaped_speculative hnot f

theorem Serves.shaped (h : Serves settings golden fetch p entry stats q) {consumed : Prop}
    (hc : consumed) : entry.Shaped consumed := by
  cases h with
  | supplied demand | observed demand => constructor <;> simp [demand, hc, Effect.ofWrite]
  | @stored width access later demand front =>
      constructor
      case narrow =>
        intro other value hdemand hvalue
        obtain rfl : width = other := Demand.access.inj (demand.symm.trans hdemand)
        obtain rfl := Option.some.inj hvalue
        exact width.narrow_lt _ _
      all_goals simp [demand, hc, Effect.ofStore]
  | silent demand => constructor <;> simp [demand, hc, ReconciledEntry.ofFetch]
  | unknown demand =>
      constructor <;> simp [demand, hc, speculative, ReconciledEntry.ofFetch, Effect.none]

/-- A step whose fetch has register zero for its destination leaves the commits as they were. -/
theorem commits_step_of_targetsZero (settings : Settings) (golden : GoldenEntry) (p : Progress)
    (hran : (step settings golden p).ranOut = none)
    (hzero : ∀ entry ∈ (step settings golden p).entries.getLast?, entry.instr.targetsZero = true) :
    (step settings golden p).progress.commits = p.commits := by
  rcases stops_or_serves settings golden p with
    ⟨stream, skipped, later, hs⟩ | ⟨skipped, fetch, later, entry, stats, q, ha, hs⟩
  · obtain ⟨events, he⟩ := step_of_stops settings hs
    rw [he] at hran
    cases hran
  · obtain ⟨events, he⟩ := step_of_serves ha hs
    rw [he] at hzero ⊢
    have htarget : entry.instr.targetsZero = true := hzero entry (by simp)
    cases hs with
    | stored | silent | unknown => rfl
    | supplied demand | observed demand =>
        obtain ⟨-, htargets⟩ := Instruction.exists_demand_eq_commit_iff.1 ⟨_, demand⟩
        cases htarget.symm.trans htargets

/-! ## Whole runs -/

/-- **Every entry of a run has its shape**: those that were skipped, the one that was aligned, and by
induction those behind it. -/
theorem Run.shaped {index : Nat} {goldens : List GoldenEntry} {r : Reconciliation}
    (h : Run settings index goldens p r) {k : Nat} (hk : r.entries[k]? = some entry) :
    entry.Shaped (Consumes goldens r.entries k) := by
  induction h generalizing k with
  | finished => cases hk
  | @stopped index golden rest p stream skipped later stops =>
      show entry.Shaped (Consumes (golden :: rest) (skipped.map speculative) k)
      obtain ⟨hlt, -⟩ := List.getElem?_eq_some_iff.1 hk
      rw [List.length_map] at hlt
      rw [← List.append_nil (skipped.map speculative)] at hk ⊢
      exact shaped_skipped stops.skipped_ne hlt hk
  | @served index golden rest p q skipped later fetch served stats r aligns serves run ih =>
      show entry.Shaped (Consumes (golden :: rest) (skipped.map speculative ++ served :: r.entries) k)
      rcases Nat.lt_trichotomy k skipped.length with hlt | rfl | hgt
      · exact shaped_skipped aligns.skipped_ne hlt hk
      · obtain rfl : served = entry :=
          Option.some.inj ((getElem?_aligned skipped served r.entries).symm.trans hk)
        exact serves.shaped (consumes_aligned aligns serves r.entries)
      · have hle : skipped.length + 1 ≤ k := hgt
        obtain ⟨k, rfl⟩ := Nat.exists_eq_add_of_le hle
        rw [consumes_behind aligns serves]
        exact ih ((getElem?_behind skipped served r.entries k).symm.trans hk)

end Reconciliation

/-! ## Whole traces -/

/-- **The shape of the entries of a run**, wherever it ends.

* An entry has a register effect exactly if it consumed a golden entry and is the fetch of a load, of
  arithmetic or of a jump that does not have register zero for its destination.
* It has a memory effect exactly if it consumed a golden entry and is the fetch of a store, and what is
  stored fits into the width of that.
* So it never has both effects, and an instruction with register zero for its destination takes no commit:
  as many are taken as entries have a register effect, and a step of such an instruction moves none.
* It is speculative exactly if it consumed no golden entry or its word is not recognized, and it shows
  nothing then. -/
theorem entries_shaped (golden : List GoldenEntry) (trace : DeviceTrace) (settings : Settings) :
    let r := reconcile golden trace settings
    (∀ k entry, r.entries[k]? = some entry →
      (entry.targetReg.isSome = entry.regVal.isSome) ∧
      (entry.targetReg.isSome = true ↔ Consumes golden r.entries k ∧
        entry.instr.category.writesRegister = true ∧ entry.instr.targetsZero = false) ∧
      (entry.memAddr.isSome = entry.memVal.isSome) ∧
      (entry.memAddr.isSome = true ↔ Consumes golden r.entries k ∧
        ∃ width, entry.instr.category = .store width) ∧
      (∀ width value, entry.instr.category = .store width → entry.memVal = some value →
        value.toNat < 2 ^ (8 * width.bytes)) ∧
      ¬ (entry.targetReg.isSome = true ∧ entry.memAddr.isSome = true) ∧
      (entry.speculativeFetch = true ↔
        ¬ Consumes golden r.entries k ∨ entry.instr.category = .unknown) ∧
      (entry.speculativeFetch = true → entry.toEffect = .none ∧ entry.speculativeCommit = false)) ∧
    r.cursors.commits = r.entries.countP (·.targetReg.isSome) ∧
    ∀ (expected : GoldenEntry) (p : Progress),
      (Reconciliation.step settings expected p).ranOut = none →
      (∀ entry ∈ (Reconciliation.step settings expected p).entries.getLast?,
        entry.instr.targetsZero = true) →
      (Reconciliation.step settings expected p).progress.commits = p.commits := by
  intro r
  have hrun := run_reconcile golden trace settings
  refine ⟨?_, ?_, Reconciliation.commits_step_of_targetsZero settings⟩
  · intro k entry hk
    have hshaped := hrun.shaped hk
    refine ⟨hshaped.value.symm, ?_, hshaped.stored.symm, ?_, ?_, hshaped.apart, ?_, hshaped.bare⟩
    · rw [hshaped.register, Instruction.exists_demand_eq_commit_iff]
    · rw [hshaped.address]
      exact and_congr_right fun _ => exists_congr fun _ => Instruction.demand_eq_access_iff
    · intro width value hcategory
      exact hshaped.narrow width value (Instruction.demand_eq_access_iff.2 hcategory)
    · rw [hshaped.speculative, Instruction.demand_eq_unknown_iff]
  · rw [hrun.balanced.commits]
    exact Nat.zero_add _

end Lockstep
