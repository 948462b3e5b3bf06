import Lockstep.Proofs.Observation
import Mathlib.Data.List.Induction
import Mathlib.Data.List.Perm.Subperm
import Mathlib.Data.List.ReduceOption
import Mathlib.Data.Set.Function
import Mathlib.Order.Monotone.Basic

/-!
# Accounting for a golden trace

What is left to be said of a device when nothing is wrong with it: every golden entry is accounted for by
places of the three streams. Here that is told as functions from golden indices to places
(`Accounted`), without a word about how the streams were read.

A register write may be accounted for by no commit at all, when it repeats what the golden trace itself
wrote before (`Repeats`). That is a statement about a prefix of the golden trace; a run knows the
register file instead, and `value?_after` ties the two.
-/

namespace Lockstep

/-- The value that the golden trace last wrote to a register, or else the one it was reset to. -/
def lastWritten (reset : UInt32) (earlier : List GoldenEntry) (reg : UInt8) : UInt32 :=
  ((earlier.filterMap (·.registerWrite?)).findRev? (·.reg == reg)).elim reset (·.value)

/-- After the earlier entries, the write puts into a register, other than register zero, the value that
was last written to it. -/
def Repeats (reset : UInt32) (earlier : List GoldenEntry) (write : RegisterWrite) : Prop :=
  1 ≤ write.reg.toNat ∧ write.reg.toNat < registerCount ∧
    lastWritten reset earlier write.reg = write.value

/-- The `i`-th golden entry writes a register, and the write is not a repetition. -/
def Awaits (reset : UInt32) (golden : List GoldenEntry) (i : Nat) (write : RegisterWrite) : Prop :=
  ∃ entry, golden[i]? = some entry ∧ entry.registerWrite? = some write ∧
    ¬ Repeats reset (golden.take i) write

/-- Once it is normalized, the entry carries the effects of an instruction with the given demand. -/
def GoldenEntry.Shows (settings : Settings) (entry : GoldenEntry) : Demand → Prop
  | .commit _ => ∃ write, entry.registerWrite? = some write ∧
    (entry.normalized settings).toEffect = .ofWrite write
  | .access _ => ∃ address value, entry.memAddr = some address ∧ entry.memVal = some value ∧
    (entry.normalized settings).toEffect = .ofStore (settings.shownAddress address) value
  | .nothing => (entry.normalized settings).toEffect = .none
  | .unknown => False

/-- Every golden entry is accounted for by what the device did. -/
structure Accounted (settings : Settings) (golden : List GoldenEntry) (trace : DeviceTrace) : Prop where
  /-- The entries are fetched in order. A fetch skipped before one of them is from another place. -/
  fetches : ∃ position : Nat → Nat, StrictMono position ∧
    ∀ i entry, golden[i]? = some entry → trace.fetches[position i]? = some entry.toFetch ∧
      ∀ j fetch, trace.fetches[j]? = some fetch → j < position i → (∀ k < i, position k < j) →
        fetch.pc ≠ entry.pc
  /-- Every write that is not a repetition is a commit, each one of its own. -/
  commits : ∃ position : Nat → Nat,
    Set.InjOn position {i | ∃ write, Awaits settings.shadowResetValue golden i write} ∧
    ∀ i write, Awaits settings.shadowResetValue golden i write →
      trace.commits[position i]? = some write
  /-- The stores are the accesses, one by one. -/
  accesses : ShowsAccesses settings golden trace.accesses
  /-- Every entry carries what its instruction demands. -/
  effects : ∀ entry ∈ golden, entry.Shows settings entry.instr.demand
  /-- An entry that neither writes a register nor is a store carries nothing. -/
  others : ∀ entry ∈ golden, entry.registerWrite? = none → entry.instr.isStore = false →
    (entry.normalized settings).toEffect = .none

/-! ## The places of fetches -/

/-- The positions of a list with one more element in front. -/
def prepend (first : Nat) (position : Nat → Nat) : Nat → Nat
  | 0 => first
  | i + 1 => position i

@[simp] theorem prepend_zero (first : Nat) (position : Nat → Nat) :
    prepend first position 0 = first := rfl

@[simp] theorem prepend_succ (first : Nat) (position : Nat → Nat) (i : Nat) :
    prepend first position (i + 1) = position i := rfl

theorem strictMono_prepend {first : Nat} {position : Nat → Nat} (hmono : StrictMono position)
    (hfirst : first < position 0) : StrictMono (prepend first position) := by
  refine strictMono_nat_of_lt_succ fun i => ?_
  cases i with
  | zero => exact hfirst
  | succ i => exact hmono (Nat.lt_succ_self i)

theorem ShowsFetches.exists_positions {golden : List GoldenEntry} {fetches : List Fetch}
    (h : ShowsFetches golden fetches) :
    ∃ position : Nat → Nat, StrictMono position ∧
      ∀ i entry, golden[i]? = some entry → fetches[position i]? = some entry.toFetch ∧
        ∀ j fetch, fetches[j]? = some fetch → j < position i → (∀ k < i, position k < j) →
          fetch.pc ≠ entry.pc := by
  induction h with
  | done later => exact ⟨id, strictMono_id, nofun⟩
  | @next golden rest skipped later skipped_ne shows ih =>
      obtain ⟨position, hmono, hposition⟩ := ih
      -- Behind the skipped fetches and the first entry, places are those of the later fetches.
      have hlater : ∀ j, (skipped ++ golden.toFetch :: later)[skipped.length + 1 + j]? = later[j]? := by
        intro j
        rw [List.getElem?_append_right (by omega), Nat.add_assoc, Nat.add_sub_cancel_left,
          Nat.add_comm 1 j, List.getElem?_cons_succ]
      refine ⟨prepend skipped.length fun i => skipped.length + 1 + position i, ?_, ?_⟩
      · refine strictMono_prepend (fun i j hij => Nat.add_lt_add_left (hmono hij) _) ?_
        show skipped.length < skipped.length + 1 + position 0
        omega
      · rintro (_ | i) entry he
        · obtain rfl : golden = entry := Option.some.inj he
          rw [prepend_zero]
          refine ⟨?_, fun j fetch hfetch hlt _ => ?_⟩
          · rw [List.getElem?_append_right (Nat.le_refl _), Nat.sub_self, List.getElem?_cons_zero]
          · rw [List.getElem?_append_left hlt] at hfetch
            exact skipped_ne fetch (List.mem_of_getElem? hfetch)
        · obtain ⟨hfetched, hskipped⟩ := hposition i entry he
          rw [prepend_succ]
          refine ⟨(hlater _).trans hfetched, fun j fetch hfetch hlt hafter => ?_⟩
          have hlow : skipped.length < j := hafter 0 (Nat.succ_pos i)
          obtain ⟨j, rfl⟩ := Nat.exists_eq_add_of_le (Nat.succ_le_of_lt hlow)
          rw [Nat.succ_eq_add_one, hlater] at hfetch
          refine hskipped j fetch hfetch (Nat.lt_of_add_lt_add_left hlt) fun k hk => ?_
          exact Nat.lt_of_add_lt_add_left (hafter (k + 1) (Nat.succ_lt_succ hk))

/-! ## The places of commits -/

/-- A list that holds what is owed holds each of it at a place of its own. -/
theorem exists_positions_of_subperm {α : Type} {owed : List (Option α)} {ys : List α}
    (h : owed.reduceOption.Subperm ys) :
    ∃ position : Nat → Nat, Set.InjOn position {i | ∃ x, owed[i]? = some (some x)} ∧
      ∀ i x, owed[i]? = some (some x) → ys[position i]? = some x := by
  induction owed generalizing ys with
  | nil => exact ⟨id, Function.injective_id.injOn, nofun⟩
  | cons first rest ih =>
      cases first with
      | none =>
          rw [List.reduceOption_cons_of_none] at h
          obtain ⟨position, hinj, hposition⟩ := ih h
          refine ⟨fun i => position i.pred, ?_, ?_⟩
          · rintro (_ | i) ⟨x, hi⟩ (_ | j) ⟨y, hj⟩ heq
            · rfl
            · cases hi
            · cases hj
            · exact congrArg Nat.succ (hinj ⟨x, hi⟩ ⟨y, hj⟩ heq)
          · rintro (_ | i) x hi
            · cases hi
            · exact hposition i x hi
      | some x =>
          rw [List.reduceOption_cons_of_some] at h
          obtain ⟨n, hn, hx⟩ := List.mem_iff_getElem.1 (h.subset List.mem_cons_self)
          have hrest : rest.reduceOption.Subperm (ys.eraseIdx n) := by
            have hperm := List.getElem_cons_eraseIdx_perm hn
            rw [hx] at hperm
            exact (List.subperm_cons x).1 (h.trans hperm.symm.subperm)
          obtain ⟨position, hinj, hposition⟩ := ih hrest
          -- The place of `x` is kept free: the others are moved out of its way.
          refine ⟨prepend n fun i => if position i < n then position i else position i + 1, ?_, ?_⟩
          · rintro (_ | i) ⟨y, hi⟩ (_ | j) ⟨z, hj⟩ heq
            · rfl
            · rw [prepend_zero, prepend_succ] at heq
              split at heq <;> omega
            · rw [prepend_zero, prepend_succ] at heq
              split at heq <;> omega
            · rw [prepend_succ, prepend_succ] at heq
              have hsame : position i = position j := by
                split at heq <;> split at heq <;> omega
              exact congrArg Nat.succ (hinj ⟨y, hi⟩ ⟨z, hj⟩ hsame)
          · rintro (_ | i) y hi
            · obtain rfl : x = y := Option.some.inj (Option.some.inj hi)
              exact List.getElem?_eq_some_iff.2 ⟨hn, hx⟩
            · have hy := hposition i y hi
              rw [List.getElem?_eraseIdx] at hy
              rw [prepend_succ]
              split
              · next hlt => rwa [if_pos hlt] at hy
              · next hlt => rwa [if_neg hlt] at hy

/-! ## Writes that a run waits for -/

/-- The golden write, unless the register file shows that it repeats. -/
def awaitedWrite? (file : RegisterFile) (golden : GoldenEntry) : Option RegisterWrite :=
  golden.registerWrite?.filter fun write => !file.repeats write

/-- For each golden entry the write that a run waits for there. -/
def awaitedWrites (file : RegisterFile) : List GoldenEntry → List (Option RegisterWrite)
  | [] => []
  | golden :: rest => awaitedWrite? file golden :: awaitedWrites (file.follow golden) rest

theorem awaitedWrite?_eq_some_iff {file : RegisterFile} {golden : GoldenEntry}
    {write : RegisterWrite} :
    awaitedWrite? file golden = some write ↔
      golden.registerWrite? = some write ∧ file.repeats write = false := by
  unfold awaitedWrite?
  rw [Option.filter_eq_some_iff, Bool.not_eq_true']

theorem awaitedWrite?_of_repeated {file : RegisterFile} {golden : GoldenEntry}
    {write : RegisterWrite} (h : Reconciliation.repeatedWrite? file golden = some write) :
    awaitedWrite? file golden = none := by
  obtain ⟨hw, hr⟩ := Reconciliation.repeatedWrite?_eq_some_iff.1 h
  rw [awaitedWrite?, hw, Option.filter_eq_none_iff]
  intro other ho
  obtain rfl := Option.some.inj ho
  simp [hr]

theorem awaitedWrite?_of_fresh {file : RegisterFile} {golden : GoldenEntry} {write : RegisterWrite}
    (hw : golden.registerWrite? = some write)
    (h : Reconciliation.repeatedWrite? file golden = none) :
    awaitedWrite? file golden = some write := by
  refine awaitedWrite?_eq_some_iff.2 ⟨hw, Bool.eq_false_iff.2 fun hr => ?_⟩
  rw [Reconciliation.repeatedWrite?_eq_some_iff.2 ⟨hw, hr⟩] at h
  cases h

theorem getElem?_awaitedWrites (file : RegisterFile) (golden : List GoldenEntry) (i : Nat) :
    (awaitedWrites file golden)[i]? =
      golden[i]?.map (awaitedWrite? ((golden.take i).foldl RegisterFile.follow file)) := by
  induction golden generalizing file i with
  | nil => rfl
  | cons entry rest ih =>
      cases i with
      | zero => rfl
      | succ i =>
          rw [awaitedWrites, List.getElem?_cons_succ, List.getElem?_cons_succ, ih,
            List.take_succ_cons, List.foldl_cons]

theorem lastWritten_concat (reset : UInt32) (earlier : List GoldenEntry) (golden : GoldenEntry)
    (reg : UInt8) :
    lastWritten reset (earlier ++ [golden]) reg =
      ((golden.registerWrite?.filter (·.reg == reg)).map (·.value)).getD
        (lastWritten reset earlier reg) := by
  -- Seen from the end of the trace, the new entry comes first.
  unfold lastWritten
  rw [List.filterMap_append, List.findRev?_eq_find?_reverse, List.findRev?_eq_find?_reverse,
    List.reverse_append, List.find?_append]
  cases hw : golden.registerWrite? with
  | none => simp [hw]
  | some write => by_cases hr : write.reg = reg <;> simp [hw, hr, Option.filter]

/-- **The register file is what the golden trace wrote.** -/
theorem value?_after (reset : UInt32) (earlier : List GoldenEntry) {reg : UInt8}
    (h : reg.toNat < registerCount) :
    (earlier.foldl RegisterFile.follow (.filled reset)).value? reg =
      some (lastWritten reset earlier reg) := by
  induction earlier using List.reverseRecOn with
  | nil => exact RegisterFile.value?_filled h reset
  | append_singleton earlier golden ih =>
      rw [List.foldl_append, List.foldl_cons, List.foldl_nil, lastWritten_concat,
        RegisterFile.follow]
      cases golden.registerWrite? with
      | none => exact ih
      | some write =>
          rw [Option.map_some, Option.getD_some, RegisterFile.value?_write]
          by_cases hr : write.reg = reg
          · simp [hr, h, Option.filter]
          · simp [hr, ih, Option.filter]

theorem repeats_after_iff {reset : UInt32} {earlier : List GoldenEntry} {write : RegisterWrite} :
    (earlier.foldl RegisterFile.follow (.filled reset)).repeats write = true ↔
      Repeats reset earlier write := by
  have hzero : write.reg ≠ 0 ↔ 1 ≤ write.reg.toNat := by
    rw [Nat.one_le_iff_ne_zero, ne_eq, ne_eq, ← UInt8.toNat_inj]
    rfl
  unfold RegisterFile.repeats Repeats
  rw [Bool.and_eq_true, bne_iff_ne, beq_iff_eq, hzero]
  by_cases hlt : write.reg.toNat < registerCount
  · rw [value?_after reset earlier hlt, Option.some.injEq]
    simp [hlt]
  · have hnone : (earlier.foldl RegisterFile.follow (.filled reset)).value? write.reg = none :=
      Vector.getElem?_eq_none (Nat.le_of_not_lt hlt)
    rw [hnone]
    simp [hlt]

/-- What a run waits for are the writes that are no repetitions. -/
theorem getElem?_awaitedWrites_eq_some_iff {reset : UInt32} {golden : List GoldenEntry} {i : Nat}
    {write : RegisterWrite} :
    (awaitedWrites (.filled reset) golden)[i]? = some (some write) ↔
      Awaits reset golden i write := by
  rw [getElem?_awaitedWrites, Option.map_eq_some_iff]
  unfold Awaits
  simp only [awaitedWrite?_eq_some_iff, ← repeats_after_iff, Bool.not_eq_true]

end Lockstep
