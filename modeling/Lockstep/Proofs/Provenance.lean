import Lockstep.Proofs.Accounting
import Lockstep.Proofs.Comparison
import Lockstep.Proofs.Lookahead

/-!
# Where the effects come from

A reconciled entry shows a register effect or a memory effect. Each one is traced back to the streams
here: a register effect that was not supplied is a commit of the device, and a memory effect an access.

The commits are not taken in order, since every exchange moves a commit that waits to another place. What
stays true of them is `Drawn`: each one is taken from a place of its own, and that place is less than a
window behind its turn. The induction goes from the end of the run to its start, so a place among the
commits that a step leaves has to be found again among those that it met: one further on behind the
commit that was taken (`Drawn.cons`), and where an exchange had put it (`Drawn.of_exchange`).
-/

namespace Lockstep

/-- The entry has a register effect that was not supplied. -/
def ReconciledEntry.observesCommit (entry : ReconciledEntry) : Bool :=
  entry.targetReg.isSome && !entry.speculativeCommit

/-- The commit of the device that the entry shows. -/
def ReconciledEntry.observedCommit? (entry : ReconciledEntry) : Option RegisterWrite :=
  match entry.targetReg, entry.regVal with
  | some reg, some value => if entry.speculativeCommit then none else some { reg, value }
  | _, _ => none

/-- The commits of the device that the entries show, in order. -/
def observedCommits (entries : List ReconciledEntry) : List RegisterWrite :=
  entries.filterMap (·.observedCommit?)

/-- Each element was taken from a place of its own, less than `window` places behind its turn. -/
def Drawn {α : Type} (window : Nat) (taken pending : List α) : Prop :=
  ∃ position : Nat → Nat, Function.Injective position ∧ (∀ k, position k < k + window) ∧
    ∀ k x, taken[k]? = some x → pending[position k]? = some x

/-! ## Drawing from a window -/

namespace Drawn

variable {α : Type} {window : Nat} {taken pending : List α}

theorem nil (h : 0 < window) : Drawn window [] pending :=
  ⟨id, Function.injective_id, fun _ => Nat.lt_add_of_pos_right h, nofun⟩

theorem cons (h : Drawn window taken pending) (x : α) : Drawn window (x :: taken) (x :: pending) := by
  obtain ⟨position, hinj, hbound, hplace⟩ := h
  refine ⟨prepend 0 fun k => position k + 1, ?_, ?_, ?_⟩
  · rintro (_ | i) (_ | j) heq
    · rfl
    · cases heq
    · cases heq
    · exact congrArg Nat.succ (hinj (Nat.succ.inj heq))
  · rintro (_ | k)
    · have h0 := hbound 0
      rw [prepend_zero]
      omega
    · have hk := hbound k
      rw [prepend_succ]
      omega
  · rintro (_ | k) y hy
    · exact hy
    · exact hplace k y hy

/-- What is drawn after an exchange within the window is drawn from that window. -/
theorem of_exchange {offset : Nat} (hwindow : offset < window) (hlength : offset < pending.length)
    (h : Drawn window taken (Lookahead.exchange offset pending)) : Drawn window taken pending := by
  obtain ⟨position, hinj, hbound, hplace⟩ := h
  refine ⟨Equiv.swap 0 offset ∘ position, (Equiv.swap 0 offset).injective.comp hinj, ?_, ?_⟩
  · intro k
    have hk := hbound k
    rw [Function.comp_apply, Equiv.swap_apply_def]
    split
    · omega
    · split <;> omega
  · intro k x hx
    rw [Function.comp_apply, ← Lookahead.getElem?_exchange hlength]
    exact hplace k x hx

theorem of_promoted {limit : Nat} {expected : Option RegisterWrite} {taken pending : List RegisterWrite}
    (hlimit : limit ≤ window)
    (h : Drawn window taken (Reconciliation.promoted limit expected pending)) :
    Drawn window taken pending := by
  cases expected with
  | none => exact h
  | some write =>
      rcases Lookahead.promote_cases write limit pending with he | ⟨offset, hoffset, hlength, he⟩
      · rw [Reconciliation.promoted, he] at h
        exact h
      · rw [Reconciliation.promoted, he] at h
        exact of_exchange (Nat.lt_of_lt_of_le hoffset hlimit) hlength h

end Drawn

/-! ## The effects of a step -/

namespace Reconciliation

variable {settings : Settings} {golden : GoldenEntry} {fetch : Fetch} {p q : Progress}
  {entry : ReconciledEntry} {stats : Stats}

theorem promoted_of_bringForward_eq_none {window : Nat} {expected : Option RegisterWrite}
    {commits : Feed RegisterWrite} (h : (bringForward window expected commits).1 = none) :
    promoted window expected commits.pending = commits.pending := by
  cases expected with
  | none => rfl
  | some write =>
      simp only [bringForward, promoted, Lookahead.promote] at h ⊢
      cases hs : Lookahead.search write window commits.pending with
      | inPlace => rfl
      | notFound => rfl
      | found offset =>
          rw [hs] at h
          cases h

/-- The entry shows no commit of the device, and the step leaves the pending ones as they were. -/
structure LeavesCommits (p q : Progress) (entry : ReconciledEntry) : Prop where
  observes : entry.observesCommit = false
  observed : entry.observedCommit? = none
  pending : q.commits.pending = p.commits.pending

/-- The entry shows the commit in front, once the golden write was brought there. -/
structure TakesCommit (settings : Settings) (golden : GoldenEntry) (p q : Progress)
    (entry : ReconciledEntry) (stats : Stats) (commit : RegisterWrite) : Prop where
  observes : entry.observesCommit = true
  observed : entry.observedCommit? = some commit
  effect : entry.toEffect = .ofWrite commit
  front : ∃ mayReorder, promoted settings.reorderWindow (expectedWrite? mayReorder golden)
    p.commits.pending = commit :: q.commits.pending
  /-- Without an exchange it was in front before. -/
  in_place : stats.reorderedCommits = 0 → p.commits.pending = commit :: q.commits.pending

/-- **What a step does to the commits.** -/
theorem Serves.leaves_or_takes (h : Serves settings golden fetch p entry stats q) :
    LeavesCommits p q entry ∨ ∃ commit, TakesCommit settings golden p q entry stats commit := by
  cases h with
  | supplied | stored | silent | unknown => exact .inl ⟨rfl, rfl, rfl⟩
  | @observed mayReorder commit later demand fresh front =>
      refine .inr ⟨commit, rfl, rfl, rfl, ⟨mayReorder, front⟩, fun hcount => ?_⟩
      rw [← front, promoted_of_bringForward_eq_none]
      cases hb : (bringForward settings.reorderWindow (expectedWrite? mayReorder golden)
          p.commits).1 with
      | none => rfl
      | some offset =>
          rw [hb] at hcount
          cases hcount

/-- What a step does to the accesses. -/
theorem Serves.leaves_or_takes_access (h : Serves settings golden fetch p entry stats q) :
    entry.memAddr = none ∧ q.accesses.pending = p.accesses.pending ∨
      ∃ access, entry.memAddr = some access.address ∧
        p.accesses.pending = access :: q.accesses.pending := by
  cases h with
  | supplied | observed | silent | unknown => exact .inl ⟨rfl, rfl⟩
  | stored demand front => exact .inr ⟨_, rfl, front⟩

/-! ## The effects of a run -/

theorem observedCommits_speculative (skipped : List Fetch) :
    observedCommits (skipped.map speculative) = [] :=
  List.filterMap_eq_nil_iff.2 (List.forall_mem_map.2 fun _ _ => rfl)

theorem observedCommits_skipped (skipped : List Fetch) (entry : ReconciledEntry)
    (later : List ReconciledEntry) :
    observedCommits (skipped.map speculative ++ entry :: later) =
      entry.observedCommit?.toList ++ observedCommits later := by
  unfold observedCommits
  rw [List.filterMap_append, ← observedCommits, observedCommits_speculative, List.nil_append,
    List.filterMap_cons]
  cases entry.observedCommit? with
  | none => rfl
  | some commit => rfl

variable {index : Nat} {goldens : List GoldenEntry} {r : Reconciliation}

/-- The commits that a run shows are drawn from those that were pending. -/
theorem Run.drawn (h : Run settings index goldens p r) :
    Drawn (max settings.reorderWindow 1) (observedCommits r.entries) p.commits.pending := by
  have hpos : 0 < max settings.reorderWindow 1 := Nat.lt_of_lt_of_le Nat.one_pos (Nat.le_max_right ..)
  induction h with
  | finished => exact .nil hpos
  | stopped stops =>
      show Drawn _ (observedCommits (List.map speculative _)) _
      rw [observedCommits_speculative]
      exact .nil hpos
  | @served index golden rest p q skipped later fetch entry stats r aligns serves run ih =>
      show Drawn _ (observedCommits (skipped.map speculative ++ entry :: r.entries)) _
      rw [observedCommits_skipped]
      rcases serves.leaves_or_takes with leaves | ⟨commit, takes⟩
      · rw [leaves.observed, ← leaves.pending]
        exact ih
      · obtain ⟨mayReorder, hfront⟩ := takes.front
        have hcons : Drawn _ (commit :: observedCommits r.entries) (commit :: q.commits.pending) :=
          ih.cons commit
        rw [← hfront] at hcons
        rw [takes.observed]
        exact hcons.of_promoted (Nat.le_max_left ..)

/-- Without an exchange, they are drawn in order. -/
theorem Run.observedCommits_isPrefix (h : Run settings index goldens p r)
    (hnone : r.stats.reorderedCommits = 0) : observedCommits r.entries <+: p.commits.pending := by
  induction h with
  | finished => exact List.nil_prefix
  | stopped stops =>
      show observedCommits (List.map speculative _) <+: _
      rw [observedCommits_speculative]
      exact List.nil_prefix
  | @served index golden rest p q skipped later fetch entry stats r aligns serves run ih =>
      obtain ⟨hnow, hlater⟩ := Nat.add_eq_zero_iff.1
        (show stats.reorderedCommits + r.stats.reorderedCommits = 0 from hnone)
      show observedCommits (skipped.map speculative ++ entry :: r.entries) <+: _
      rw [observedCommits_skipped]
      rcases serves.leaves_or_takes with leaves | ⟨commit, takes⟩
      · rw [leaves.observed, ← leaves.pending]
        exact ih hlater
      · rw [takes.observed, takes.in_place hnow]
        exact (List.prefix_cons_inj commit).2 (ih hlater)

/-- An entry that shows a commit of the device has no other effect. -/
theorem Run.toEffect_observed (h : Run settings index goldens p r) :
    (r.entries.filter (·.observesCommit)).map (·.toEffect) =
      (observedCommits r.entries).map .ofWrite := by
  induction h with
  | finished => rfl
  | stopped stops =>
      show ((List.map speculative _).filter _).map _ = (observedCommits (List.map speculative _)).map _
      rw [filter_speculative fun _ => rfl, observedCommits_speculative]
      rfl
  | @served index golden rest p q skipped later fetch entry stats r aligns serves run ih =>
      show ((skipped.map speculative ++ entry :: r.entries).filter _).map _ =
        (observedCommits (skipped.map speculative ++ entry :: r.entries)).map _
      rw [observedCommits_skipped, List.filter_append, filter_speculative fun _ => rfl,
        List.nil_append]
      rcases serves.leaves_or_takes with leaves | ⟨commit, takes⟩
      · rw [List.filter_cons_of_neg (by simp [leaves.observes]), leaves.observed, ih]
        rfl
      · rw [List.filter_cons_of_pos takes.observes, List.map_cons, takes.effect, takes.observed, ih]
        rfl

/-- The memory effects of a run are the accesses in order. -/
theorem Run.memAddr_isPrefix (h : Run settings index goldens p r) :
    (r.entries.filter (·.memAddr.isSome)).map (·.memAddr) <+:
      p.accesses.pending.map fun access => some access.address := by
  induction h with
  | finished => exact List.nil_prefix
  | stopped stops =>
      show ((List.map speculative _).filter _).map _ <+: _
      rw [filter_speculative fun _ => rfl]
      exact List.nil_prefix
  | @served index golden rest p q skipped later fetch entry stats r aligns serves run ih =>
      show ((skipped.map speculative ++ entry :: r.entries).filter _).map _ <+: _
      rw [List.filter_append, filter_speculative fun _ => rfl, List.nil_append]
      rcases serves.leaves_or_takes_access with ⟨hnone, hpending⟩ | ⟨access, hsome, hfront⟩
      · rw [List.filter_cons_of_neg (by simp [hnone]), ← hpending]
        exact ih
      · rw [List.filter_cons_of_pos (by simp [hsome]), hfront, List.map_cons, List.map_cons, hsome]
        exact (List.prefix_cons_inj _).2 ih

end Reconciliation

/-- **Observations are neither invented nor used twice.** Every register effect that was not supplied is a
commit of the device at a place of its own, which is less than a window behind its turn. The memory
effects have the addresses of the accesses, one by one. -/
theorem exists_places_of_observed (golden : List GoldenEntry) (trace : DeviceTrace)
    (settings : Settings) :
    let r := reconcile golden trace settings
    (∃ position : Nat → Nat, Function.Injective position ∧
      ∀ (k : Nat) (entry : ReconciledEntry), (r.entries.filter (·.observesCommit))[k]? = some entry →
        position k ≤ k + max settings.reorderWindow 1 - 1 ∧
        ∃ commit, trace.commits[position k]? = some commit ∧
          entry.targetReg = some commit.reg ∧ entry.regVal = some commit.value) ∧
    ∀ (j : Nat) (entry : ReconciledEntry), (r.entries.filter (·.memAddr.isSome))[j]? = some entry →
      ∃ access, trace.accesses[j]? = some access ∧ entry.memAddr = some access.address := by
  intro r
  have hrun := run_reconcile golden trace settings
  constructor
  · obtain ⟨position, hinj, hbound, hplace⟩ := hrun.drawn
    refine ⟨position, hinj, fun k entry hk => ⟨Nat.le_sub_one_of_lt (hbound k), ?_⟩⟩
    have heffect : ((observedCommits r.entries).map Effect.ofWrite)[k]? = some entry.toEffect := by
      rw [← hrun.toEffect_observed, List.getElem?_map, hk]
      rfl
    rw [List.getElem?_map] at heffect
    obtain ⟨commit, hcommit, hsame⟩ := Option.map_eq_some_iff.1 heffect
    refine ⟨commit, hplace k commit hcommit, ?_, ?_⟩
    · exact (congrArg Effect.targetReg hsame).symm
    · exact (congrArg Effect.regVal hsame).symm
  · intro j entry hj
    have hentry : ((r.entries.filter (·.memAddr.isSome)).map (·.memAddr))[j]? =
        some entry.memAddr := by
      rw [List.getElem?_map, hj]
      rfl
    obtain ⟨hlt, hget⟩ := List.getElem?_eq_some_iff.1 hentry
    have haccess := List.prefix_iff_getElem?.1 hrun.memAddr_isPrefix j hlt
    rw [hget, List.getElem?_map] at haccess
    obtain ⟨access, haccess, hsame⟩ := Option.map_eq_some_iff.1 haccess
    exact ⟨access, haccess, hsame.symm⟩

end Lockstep
