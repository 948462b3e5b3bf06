import Lockstep.Proofs.Repetition
import Lockstep.Verification
import Mathlib.Data.List.InsertIdx

/-!
# Speculative fetches

A device may fetch from places that it leaves again. One more such fetch, wherever it is put in, changes
nothing but the list of entries and the two counts of fetches (`verify_insert_speculative`): the run with
it and the run without it meet again at the next golden entry.

Where the fetch is put in tells which golden entry is awaited there (`awaited?`); from another program
counter than that of this entry it is skipped. Up to there the two runs are the same, and behind it they
differ in nothing but how many fetches they have counted (`Run.shift`).
-/

namespace Lockstep

/-- The golden entry that waits for its fetch, once the run has emitted these entries. -/
def awaited? (golden : List GoldenEntry) (entries : List ReconciledEntry) : Option GoldenEntry :=
  golden[(matched golden entries).length]?

/-- One more fetch among those that are pending. -/
def Progress.insertFetch (p : Progress) (place : Nat) (fetch : Fetch) : Progress :=
  { p with fetches := p.fetches.withPending (p.fetches.pending.insertIdx place fetch) }

/-- One more speculative fetch among those that were taken. -/
def Reconciliation.insertSpeculative (r : Reconciliation) (place : Nat) (fetch : Fetch) :
    Reconciliation where
  entries := r.entries.insertIdx place (Reconciliation.speculative fetch)
  outcome := r.outcome
  cursors := { r.cursors with fetches := r.cursors.fetches + 1 }
  stats := { r.stats with speculativeFetches := r.stats.speculativeFetches + 1 }

/-! ## Putting an element into a list -/

section insertIdx

variable {α : Type}

theorem insertIdx_append_of_le {place : Nat} {xs : List α} (h : place ≤ xs.length) (ys : List α)
    (x : α) : (xs ++ ys).insertIdx place x = xs.insertIdx place x ++ ys := by
  induction xs generalizing place with
  | nil =>
      obtain rfl : place = 0 := Nat.le_zero.1 h
      rfl
  | cons first xs ih =>
      cases place with
      | zero => rfl
      | succ place =>
          rw [List.cons_append, List.insertIdx_succ_cons, List.insertIdx_succ_cons,
            ih (Nat.le_of_succ_le_succ h), List.cons_append]

theorem insertIdx_append_cons (xs : List α) (y : α) (ys : List α) (place : Nat) (x : α) :
    (xs ++ y :: ys).insertIdx (xs.length + 1 + place) x = xs ++ y :: ys.insertIdx place x := by
  induction xs with
  | nil =>
      rw [List.length_nil, Nat.zero_add, Nat.add_comm]
      rfl
  | cons first xs ih =>
      have hplace : (first :: xs).length + 1 + place = xs.length + 1 + place + 1 := by
        rw [List.length_cons]
        omega
      rw [hplace, List.cons_append, List.insertIdx_succ_cons, ih, List.cons_append]

theorem filter_insertIdx_of_neg {keep : α → Bool} {x : α} (h : keep x = false) (xs : List α)
    (place : Nat) : (xs.insertIdx place x).filter keep = xs.filter keep := by
  have hskip : ∀ ys : List α, (x :: ys).filter keep = ys.filter keep := by
    intro ys
    apply List.filter_cons_of_neg
    rw [h]
    exact Bool.false_ne_true
  induction xs generalizing place with
  | nil =>
      cases place with
      | zero => exact hskip []
      | succ place => rfl
  | cons first xs ih =>
      cases place with
      | zero => exact hskip (first :: xs)
      | succ place => rw [List.insertIdx_succ_cons, List.filter_cons, List.filter_cons, ih]

end insertIdx

/-- A speculative fetch does not retire, wherever it is. -/
theorem retiredEntries_insertSpeculative (r : Reconciliation) (place : Nat) (fetch : Fetch) :
    retiredEntries (r.insertSpeculative place fetch).entries = retiredEntries r.entries :=
  filter_insertIdx_of_neg rfl r.entries place

namespace Reconciliation

variable {settings : Settings} {golden expected : GoldenEntry} {rest : List GoldenEntry}
  {p q : Progress} {skipped later : List Fetch} {fetch extra : Fetch} {entry : ReconciledEntry}
  {stats : Stats}

/-! ## The awaited entry -/

/-- As long as only skipped fetches are there, the first golden entry is awaited. -/
theorem awaited?_skipped (hskipped : ∀ f ∈ skipped, f.pc ≠ golden.pc) {place : Nat}
    (hle : place ≤ skipped.length) (entries : List ReconciledEntry) :
    awaited? (golden :: rest) ((skipped.map speculative ++ entries).take place) = some golden := by
  have htake : (skipped.map speculative ++ entries).take place =
      (skipped.take place).map speculative := by
    rw [List.take_append_of_le_length (by rw [List.length_map]; exact hle), List.map_take]
  have habsent : ∀ f ∈ skipped.take place, f.pc ≠ golden.pc :=
    fun f hf => hskipped f (List.mem_of_mem_take hf)
  rw [awaited?, htake, matched_of_absent habsent]
  rfl

theorem awaited?_served (aligns : Aligns golden p.fetches.pending skipped fetch later)
    (serves : Serves settings golden fetch p entry stats q) (entries : List ReconciledEntry)
    (place : Nat) :
    awaited? (golden :: rest)
        ((skipped.map speculative ++ entry :: entries).take (skipped.length + 1 + place)) =
      awaited? rest (entries.take place) := by
  have htake : (skipped.map speculative ++ entry :: entries).take (skipped.length + 1 + place) =
      skipped.map speculative ++ entry :: entries.take place := by
    have hplace : skipped.length + 1 + place = (skipped.map speculative).length + (place + 1) := by
      rw [List.length_map]
      omega
    rw [hplace, List.take_length_add_append, List.take_succ_cons]
  rw [awaited?, htake, matched_served rest aligns serves, List.length_cons, List.getElem?_cons_succ]
  rfl

/-! ## One golden entry -/

/-- The fetches play no part in what an aligned fetch takes from the other streams. -/
theorem Serves.with_fetches (h : Serves settings golden fetch p entry stats q)
    (fetches : Feed Fetch) :
    Serves settings golden fetch { p with fetches } entry stats { q with fetches } := by
  cases h with
  | supplied demand repeated => exact .supplied demand repeated
  | observed demand fresh front => exact .observed demand fresh front
  | stored demand front => exact .stored demand front
  | silent demand => exact .silent demand
  | unknown demand => exact .unknown demand

theorem Aligns.insert {pending : List Fetch} (h : Aligns golden pending skipped fetch later)
    {place : Nat} (hle : place ≤ skipped.length) (hne : extra.pc ≠ golden.pc) :
    Aligns golden (pending.insertIdx place extra) (skipped.insertIdx place extra) fetch later := by
  refine ⟨?_, ?_, h.pc_eq⟩
  · rw [h.pending_eq, insertIdx_append_of_le hle]
  · intro f hf
    rcases (List.mem_insertIdx hle).1 hf with rfl | hf
    · exact hne
    · exact h.skipped_ne f hf

theorem Aligns.insert_behind {pending : List Fetch} (h : Aligns golden pending skipped fetch later)
    (place : Nat) (extra : Fetch) :
    Aligns golden (pending.insertIdx (skipped.length + 1 + place) extra) skipped fetch
      (later.insertIdx place extra) := by
  refine ⟨?_, h.skipped_ne, h.pc_eq⟩
  rw [h.pending_eq, insertIdx_append_cons]

theorem Stops.insert {stream : Stream} (h : Stops golden p stream skipped later) {place : Nat}
    (hle : place ≤ skipped.length) (hne : extra.pc ≠ golden.pc) :
    Stops golden (p.insertFetch place extra) stream (skipped.insertIdx place extra) later := by
  cases h with
  | fetches habsent =>
      refine .fetches fun f hf => ?_
      rcases (List.mem_insertIdx hle).1 hf with rfl | hf
      · exact hne
      · exact habsent f hf
  | commits aligns demand fresh empty => exact .commits (aligns.insert hle hne) demand fresh empty
  | accesses aligns demand empty => exact .accesses (aligns.insert hle hne) demand empty

/-! ## The entries of one golden entry -/

theorem insertIdx_skipped {place : Nat} (hle : place ≤ skipped.length) (extra : Fetch)
    (entries : List ReconciledEntry) :
    (skipped.map speculative ++ entries).insertIdx place (speculative extra) =
      (skipped.insertIdx place extra).map speculative ++ entries := by
  have hlength : place ≤ (skipped.map speculative).length := by
    rw [List.length_map]
    exact hle
  rw [insertIdx_append_of_le hlength, List.map_insertIdx]

theorem insertIdx_served (skipped : List Fetch) (entry : ReconciledEntry)
    (entries : List ReconciledEntry) (place : Nat) (device : ReconciledEntry) :
    (skipped.map speculative ++ entry :: entries).insertIdx (skipped.length + 1 + place) device =
      skipped.map speculative ++ entry :: entries.insertIdx place device := by
  have hinsert := insertIdx_append_cons (skipped.map speculative) entry entries place device
  rw [List.length_map] at hinsert
  exact hinsert

/-! ## Whole runs -/

variable {index : Nat} {goldens : List GoldenEntry} {r : Reconciliation}

/-- How many fetches were taken before a run plays no part in it. -/
theorem Run.shift (h : Run settings index goldens p r) :
    Run settings index goldens
      { p with fetches := { p.fetches with taken := p.fetches.taken + 1 } }
      { r with cursors := { r.cursors with fetches := r.cursors.fetches + 1 } } := by
  induction h with
  | finished => exact .finished
  | @stopped index golden rest p stream skipped later stops =>
      have hstops : Stops golden { p with fetches := { p.fetches with taken := p.fetches.taken + 1 } }
          stream skipped later := by
        cases stops with
        | fetches habsent => exact .fetches habsent
        | commits aligns demand fresh empty => exact .commits aligns demand fresh empty
        | accesses aligns demand empty => exact .accesses aligns demand empty
      have htaken := Nat.add_right_comm p.fetches.taken skipped.length 1
      show Run _ _ _ _ { entries := _, outcome := _, stats := _, cursors :=
        { p.cursors with fetches := p.fetches.taken + skipped.length + 1 } }
      rw [htaken]
      exact .stopped hstops
  | @served index golden rest p q skipped later fetch entry stats r aligns serves run ih =>
      have htaken := Nat.add_right_comm p.fetches.taken skipped.length 1
      have hrun : Run settings (index + 1) rest
          { q with fetches := { taken := p.fetches.taken + 1 + skipped.length + 1, pending := later } }
          { r with cursors := { r.cursors with fetches := r.cursors.fetches + 1 } } := by
        rw [← htaken]
        exact ih
      have hserves := serves.with_fetches { p.fetches with taken := p.fetches.taken + 1 }
      exact .served (p := { p with fetches := { p.fetches with taken := p.fetches.taken + 1 } })
        aligns hserves hrun

/-- **The two runs meet again.** -/
theorem Run.insert (h : Run settings index goldens p r) {place : Nat}
    (hplace : place ≤ r.entries.length)
    (hawaited : awaited? goldens (r.entries.take place) = some expected)
    (hne : extra.pc ≠ expected.pc) :
    Run settings index goldens (p.insertFetch place extra) (r.insertSpeculative place extra) := by
  induction h generalizing place with
  | finished => cases hawaited
  | @stopped index golden rest p stream skipped later stops =>
      have hle : place ≤ skipped.length := by
        rw [List.length_map] at hplace
        exact hplace
      have hfirst : awaited? (golden :: rest) ((skipped.map speculative ++ []).take place) = _ :=
        awaited?_skipped stops.skipped_ne hle []
      rw [List.append_nil] at hfirst
      obtain rfl : golden = expected := Option.some.inj (hfirst.symm.trans hawaited)
      have hrun : Run settings index (golden :: rest) (p.insertFetch place extra) _ :=
        .stopped (stops.insert hle hne)
      rw [List.map_insertIdx, List.length_insertIdx_of_le_length hle] at hrun
      exact hrun
  | @served index golden rest p q skipped later fetch entry stats r aligns serves run ih =>
      rcases Nat.lt_or_ge skipped.length place with hlt | hle
      · -- Behind the fetch that aligns, it is the rest of the run that takes the new fetch.
        have hle : skipped.length + 1 ≤ place := hlt
        obtain ⟨place, rfl⟩ := Nat.exists_eq_add_of_le hle
        have hplace : place ≤ r.entries.length := by
          simp only [List.length_append, List.length_map, List.length_cons] at hplace
          omega
        have hlater := ih hplace ((awaited?_served aligns serves r.entries place).symm.trans hawaited)
        have hrun : Run settings index (golden :: rest) (p.insertFetch _ extra) _ :=
          .served (aligns.insert_behind place extra) (serves.with_fetches _) hlater
        unfold insertSpeculative
        rw [insertIdx_served]
        exact hrun
      · -- Before it, the new fetch is skipped as well, and the rest of the run is only counted on.
        obtain rfl : golden = expected :=
          Option.some.inj ((awaited?_skipped aligns.skipped_ne hle _).symm.trans hawaited)
        have hlength := List.length_insertIdx_of_le_length hle extra
        have htaken : p.fetches.taken + (skipped.insertIdx place extra).length + 1 =
            p.fetches.taken + skipped.length + 1 + 1 := by
          rw [hlength]
          rfl
        have hlater : Run settings (index + 1) rest
            { q with fetches := { taken := p.fetches.taken + (skipped.insertIdx place extra).length + 1,
                                  pending := later } }
            { r with cursors := { r.cursors with fetches := r.cursors.fetches + 1 } } := by
          rw [htaken]
          exact run.shift
        have hcount : (skipped.insertIdx place extra).length + r.stats.speculativeFetches =
            skipped.length + r.stats.speculativeFetches + 1 := by
          rw [hlength, Nat.add_right_comm]
        have hrun : Run settings index (golden :: rest) (p.insertFetch place extra) _ :=
          .served (aligns.insert hle hne) (serves.with_fetches _) hlater
        show Run _ _ _ _ { entries := List.insertIdx _ _ _, outcome := _, cursors := _, stats :=
          { unknownInstructions := _, synthesizedCommits := _, reorderedCommits := _,
            speculativeFetches := skipped.length + r.stats.speculativeFetches + 1 } }
        rw [insertIdx_skipped hle, ← hcount]
        exact hrun

end Reconciliation

/-! ## Whole traces -/

/-- **One more speculative fetch.** It is put in anywhere before the end of the run, from another program
counter than that of the golden entry that is awaited there. The verification then ends in the same way
and finds the same mismatches; the new fetch is skipped, and is counted as such. -/
theorem verify_insert_speculative (golden : List GoldenEntry) (trace : DeviceTrace)
    (settings : Settings) {place : Nat} {expected : GoldenEntry} {fetch : Fetch}
    (hplace : place ≤ (reconcile golden trace settings).entries.length)
    (hawaited : awaited? golden ((reconcile golden trace settings).entries.take place) = some expected)
    (hne : fetch.pc ≠ expected.pc) :
    let v := verify golden trace settings
    let w := verify golden { trace with fetches := trace.fetches.insertIdx place fetch } settings
    w.reconciliation.outcome = v.reconciliation.outcome ∧ w.mismatches = v.mismatches ∧
      w.reconciliation.cursors =
        { v.reconciliation.cursors with fetches := v.reconciliation.cursors.fetches + 1 } ∧
      w.reconciliation.stats =
        { v.reconciliation.stats with
          speculativeFetches := v.reconciliation.stats.speculativeFetches + 1 } ∧
      w.reconciliation.entries =
        v.reconciliation.entries.insertIdx place
          { ReconciledEntry.ofFetch fetch with speculativeFetch := true } := by
  intro v w
  have hrun := (run_reconcile golden trace settings).insert hplace hawaited hne
  have hsame : w.reconciliation = v.reconciliation.insertSpeculative place fetch :=
    reconcile_eq_of_run hrun
  have hmismatches : w.mismatches = v.mismatches := by
    show compareFrom settings 0 golden (retiredEntries w.reconciliation.entries) = _
    rw [hsame, retiredEntries_insertSpeculative]
    rfl
  rw [hsame]
  exact ⟨rfl, hmismatches, rfl, rfl, rfl⟩

/-- The new fetch comes where a repeated write waits for its own. Later the run ends for want of a
commit. -/
theorem verify_insert_speculative_exhausted :
    let repeated : GoldenEntry :=
      { pc := 0x104, instr := 0x00500593, targetReg := some 11, regVal := some 5 }
    let golden : List GoldenEntry := [
      { pc := 0x100, instr := 0x00500593, targetReg := some 11, regVal := some 5 },
      repeated,
      { pc := 0x108, instr := 0x00700613, targetReg := some 12, regVal := some 7 }]
    let trace : DeviceTrace := {
      fetches := golden.map (·.toFetch)
      commits := [⟨11, 5⟩] }
    let fetch : Fetch := ⟨0x100, 0x00500593⟩
    let v := verify golden trace {}
    let w := verify golden { trace with fetches := trace.fetches.insertIdx 1 fetch } {}
    1 ≤ v.reconciliation.entries.length ∧
      awaited? golden (v.reconciliation.entries.take 1) = some repeated ∧
      fetch.pc ≠ repeated.pc ∧
      v.reconciliation.outcome = .exhausted .commits 2 ∧
      w.reconciliation.outcome = v.reconciliation.outcome ∧ w.mismatches = v.mismatches ∧
      w.reconciliation.entries = v.reconciliation.entries.insertIdx 1
        { ReconciledEntry.ofFetch fetch with speculativeFetch := true } := by
  intro repeated golden trace fetch v w
  have hplace : 1 ≤ (reconcile golden trace {}).entries.length := by decide
  have hawaited : awaited? golden ((reconcile golden trace {}).entries.take 1) = some repeated := by
    decide
  have hne : fetch.pc ≠ repeated.pc := by decide
  have hends : v.reconciliation.outcome = .exhausted .commits 2 := by decide
  obtain ⟨houtcome, hmismatches, -, -, hentries⟩ :=
    verify_insert_speculative golden trace {} hplace hawaited hne
  exact ⟨hplace, hawaited, hne, hends, houtcome, hmismatches, hentries⟩

end Lockstep
