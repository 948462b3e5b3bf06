import Lockstep.Proofs.Completeness
import Lockstep.Proofs.Provenance
import Mathlib.Data.List.FinRange
import Mathlib.Data.List.Perm.Subperm
import Mathlib.Logic.Equiv.Fin.Rotate

/-!
# Recovering the program order

A device may retire its register commits in another order. The reconciliation follows it as long as no
commit comes `reorderWindow` places too late (`Rearranged`).

A single exchange moves the displaced commit to a later place, and it may confuse equal commits, so no
fixed assignment of commits to golden writes survives a step. What survives is a counting condition,
`Within`: the first `n` writes still to come are among the first `n + window - 1` pending commits, for
every `n` at once. It is Hall's condition for such an assignment, and it speaks of no assignment.
-/

namespace Lockstep

/-- The writes are among the pending commits, none `window` places or more behind its own. -/
def Within (window : Nat) (writes pending : List RegisterWrite) : Prop :=
  ∀ n, (writes.take n).Subperm (pending.take (n + (window - 1)))

/-- The commits are the writes in another order: the commit of the `q`-th write stands at a place of at
most `q + window - 1`. It may come early by any distance. -/
def Rearranged (window : Nat) (writes commits : List RegisterWrite) : Prop :=
  ∃ place : Fin writes.length ≃ Fin commits.length,
    ∀ q, commits[place q] = writes[q] ∧ (place q : Nat) ≤ q + window - 1

/-- Every jump writes register zero, or else the value that its register has already. -/
def JumpsRepeat (file : RegisterFile) : List GoldenEntry → Prop
  | [] => True
  | golden :: rest =>
    (golden.instr.category = .jump → golden.instr.targetsZero = true ∨
      ∃ write ∈ golden.registerWrite?, file.value? write.reg = some write.value) ∧
    JumpsRepeat (file.follow golden) rest

/-! ## The counting condition -/

theorem subperm_of_injective {α : Type} {xs ys : List α} {place : Fin xs.length → Fin ys.length}
    (hinj : Function.Injective place) (h : ∀ i, ys.get (place i) = xs.get i) : xs.Subperm ys := by
  -- Of the places only their number counts; the elements are put in at the end.
  have hnodup : ((List.finRange xs.length).map place).Nodup := (List.nodup_finRange _).map hinj
  obtain ⟨places, hperm, hsublist⟩ : ((List.finRange xs.length).map place).Subperm
      (List.finRange ys.length) := hnodup.subperm fun i _ => List.mem_finRange i
  have hxs : ((List.finRange xs.length).map place).map ys.get = xs := calc
    ((List.finRange xs.length).map place).map ys.get
      = (List.finRange xs.length).map (ys.get ∘ place) := List.map_map
    _ = (List.finRange xs.length).map xs.get := List.map_congr_left fun i _ => h i
    _ = xs := List.map_get_finRange xs
  have hperm' := hperm.map ys.get
  have hsublist' := hsublist.map ys.get
  rw [hxs] at hperm'
  rw [List.map_get_finRange] at hsublist'
  exact ⟨places.map ys.get, hperm', hsublist'⟩

/-- What is drawn from a window is within it. -/
theorem Drawn.within {window : Nat} {writes pending : List RegisterWrite}
    (h : Drawn window writes pending) : Within window writes pending := by
  obtain ⟨position, hinj, hbound, hplace⟩ := h
  intro n
  -- The place of a write among the first `n` lies in the longer prefix of the commits.
  have hplaces : ∀ i : Fin (writes.take n).length,
      (pending.take (n + (window - 1)))[position i]? = some (writes.take n)[i] := by
    intro i
    have hi : (i : Nat) < n := Nat.lt_of_lt_of_le i.isLt (List.length_take_le n writes)
    have hposition := hbound i
    rw [List.getElem?_take_of_lt (by omega)]
    refine hplace i _ ?_
    rw [← List.getElem?_take_of_lt hi]
    exact List.getElem?_eq_getElem i.isLt
  refine @subperm_of_injective _ _ _
    (fun i => ⟨position i, (List.getElem?_eq_some_iff.1 (hplaces i)).1⟩) ?_ ?_
  · intro i j hij
    exact Fin.ext (hinj (Fin.mk.inj hij))
  · intro i
    exact (List.getElem?_eq_some_iff.1 (hplaces i)).2

theorem Rearranged.drawn {window : Nat} {writes commits : List RegisterWrite} (hpos : 1 ≤ window)
    (h : Rearranged window writes commits) : Drawn window writes commits := by
  obtain ⟨place, hplace⟩ := h
  have hlength : writes.length = commits.length := Fin.equiv_iff_eq.1 ⟨place⟩
  -- Beyond the writes, every place is kept.
  refine ⟨fun k => if hk : k < writes.length then place ⟨k, hk⟩ else k, ?_, ?_, ?_⟩
  · intro i j heq
    simp only at heq
    split at heq <;> split at heq
    · exact Fin.mk.inj (place.injective (Fin.ext heq))
    · omega
    · omega
    · exact heq
  · intro k
    simp only
    split
    · next hk =>
      have hle := (hplace ⟨k, hk⟩).2
      simp only at hle
      omega
    · omega
  · intro k write hk
    obtain ⟨hlt, rfl⟩ := List.getElem?_eq_some_iff.1 hk
    simp only [hlt, dif_pos]
    exact List.getElem?_eq_some_iff.2 ⟨(place ⟨k, hlt⟩).isLt, (hplace ⟨k, hlt⟩).1⟩

theorem Rearranged.within {window : Nat} {writes commits : List RegisterWrite}
    (hpos : 1 ≤ window) (h : Rearranged window writes commits) : Within window writes commits :=
  (h.drawn hpos).within

/-- **One step of the recovery.** The first write is brought to the front, and the rest of the commits
still holds the rest of the writes. -/
theorem Within.promote {window : Nat} {write : RegisterWrite} {writes pending : List RegisterWrite}
    (hpos : 1 ≤ window) (h : Within window (write :: writes) pending) :
    ∃ later, (Lookahead.promote write window pending).2 = write :: later ∧
      Within window writes later := by
  have hmem : write ∈ pending.take window := by
    have h1 := h 1
    rw [Nat.add_sub_cancel' hpos] at h1
    exact List.singleton_subperm_iff.1 h1
  obtain ⟨later, hfront⟩ := Lookahead.exists_promote_eq_cons hmem
  refine ⟨later, hfront, fun n => ?_⟩
  -- The exchange stays inside the longer prefix, so cancelling the write on both sides is all.
  have hwindow : window ≤ n + 1 + (window - 1) := by omega
  have hperm : ((Lookahead.promote write window pending).2.take _).Perm (pending.take _) :=
    Lookahead.take_promote_perm hwindow
  rw [hfront, Nat.add_right_comm, List.take_succ_cons] at hperm
  have hn := h (n + 1)
  rw [List.take_succ_cons, Nat.add_right_comm, ← hperm.subperm_left] at hn
  exact (List.subperm_cons write).1 hn

/-! ## Devices that retire in another order -/

/-- A jump that repeats what is in its register has no commit to wait for. -/
theorem JumpsRepeat.write_eq {file : RegisterFile} {golden : GoldenEntry} {rest : List GoldenEntry}
    {write : RegisterWrite} (h : JumpsRepeat file (golden :: rest))
    (hd : golden.instr.demand = .commit false) (hw : golden.registerWrite? = some write) :
    file.write write = file := by
  obtain ⟨-, hcontra, -⟩ | ⟨hzero, -, hjump⟩ := Instruction.demand_eq_commit_iff.1 hd
  · cases hcontra
  rcases h.1 hjump with hz | ⟨other, ho, hv⟩
  · rw [hzero] at hz
    cases hz
  · obtain rfl := Option.some.inj (ho.symm.trans hw)
    exact RegisterFile.write_of_value?_eq hv

/-- Commits in another order are a supply too, if no jump waits for one: a jump never looks ahead. -/
theorem supply_of_within {window : Nat} (hpos : 1 ≤ window) :
    Supply window fun file golden pending =>
      JumpsRepeat file golden ∧ Within window (changes file golden) pending where
  silent := by
    rintro file golden rest pending ⟨hjumps, h⟩ hw
    rw [changes_cons_of_none hw] at h
    have hnext := hjumps.2
    rw [RegisterFile.follow_of_none hw] at hnext
    exact ⟨hnext, h⟩
  repeated := by
    rintro file golden rest pending write ⟨hjumps, h⟩ hr
    obtain ⟨hw, hrepeats⟩ := Reconciliation.repeatedWrite?_eq_some_iff.1 hr
    rw [changes_cons_of_write_eq hw (RegisterFile.write_of_repeats hrepeats)] at h
    have hnext := hjumps.2
    rw [Reconciliation.follow_of_repeated hr] at hnext
    exact ⟨hnext, h⟩
  fresh := by
    rintro file golden rest pending mayReorder write ⟨hjumps, h⟩ hd hw hne
    rw [changes_cons_of_write_ne hw hne] at h
    have hnext := hjumps.2
    rw [RegisterFile.follow_of_some hw] at hnext
    cases mayReorder with
    | false => exact absurd (hjumps.write_eq hd hw) hne
    | true =>
        obtain ⟨later, hfront, hlater⟩ := h.promote hpos
        refine ⟨later, ?_, hnext, hlater⟩
        rw [Reconciliation.expectedWrite?, if_pos rfl, hw]
        exact hfront

/-- **Recovery.** If the device ran a well-formed golden trace in which no jump waits for a commit,
and its commits are the golden changes in an order that brings none of them too late, then its
verification is complete and finds nothing wrong. -/
theorem verify_of_rearranged (golden : List GoldenEntry) (trace : DeviceTrace) (settings : Settings)
    (hpos : 1 ≤ settings.reorderWindow) (hwf : ∀ entry ∈ golden, entry.WellFormed)
    (hjumps : JumpsRepeat (.filled settings.shadowResetValue) golden)
    (hfetches : ShowsFetches golden trace.fetches)
    (haccesses : ShowsAccesses settings golden trace.accesses)
    (hcommits : Rearranged settings.reorderWindow
      (changes (.filled settings.shadowResetValue) golden) trace.commits) :
    (verify golden trace settings).reconciliation.outcome = .complete ∧
      (verify golden trace settings).mismatches = [] :=
  (run_reconcile golden trace settings).complete_of_ready (supply_of_within hpos) hwf hfetches
    haccesses ⟨hjumps, hcommits.within hpos⟩

/-- Three commits of which the first is the last to retire. The jump writes register zero, and the device
does not show the repeated write before it. -/
theorem verify_of_rearranged_three :
    let golden : List GoldenEntry := [
      { pc := 0x100, instr := 0x00500593, targetReg := some 11, regVal := some 5 },
      { pc := 0x104, instr := 0x00700613, targetReg := some 12, regVal := some 7 },
      { pc := 0x108, instr := 0x00500593, targetReg := some 11, regVal := some 5 },
      { pc := 0x10c, instr := 0x0040006f },
      { pc := 0x110, instr := 0x00900693, targetReg := some 13, regVal := some 9 }]
    let trace : DeviceTrace := {
      fetches := golden.map (·.toFetch)
      commits := [⟨12, 7⟩, ⟨13, 9⟩, ⟨11, 5⟩] }
    let settings : Settings := { reorderWindow := 3 }
    (∀ entry ∈ golden, entry.WellFormed) ∧
      Rearranged 3 (changes (.filled 0) golden) trace.commits ∧
      (verify golden trace settings).reconciliation.outcome = .complete ∧
      (verify golden trace settings).mismatches = [] := by
  intro golden trace settings
  have hwf : ∀ entry ∈ golden, entry.WellFormed := by decide
  have hjumps : JumpsRepeat (.filled settings.shadowResetValue) golden := by
    refine ⟨?_, ?_, ?_, ?_, ?_, trivial⟩ <;> decide
  have hfetches : ShowsFetches golden trace.fetches := by
    repeat refine @ShowsFetches.next _ _ [] _ nofun ?_
    exact .done []
  have haccesses : ShowsAccesses settings golden trace.accesses := by
    have hnone : golden.filter (·.instr.isStore) = [] := by decide
    intro j entry he
    rw [hnone] at he
    cases he
  have hcommits : Rearranged 3 (changes (.filled 0) golden) trace.commits :=
    ⟨(finRotate 3).symm, by decide⟩
  have h := verify_of_rearranged golden trace settings (by decide) hwf hjumps hfetches haccesses
    hcommits
  exact ⟨hwf, hcommits, h⟩

end Lockstep
