import Lockstep.Proofs.Repetition
import Lockstep.Proofs.Soundness

/-!
# Streams that run out

A run that ends early says which stream ran out, and at which golden entry. Both are true. The difficulty is
in the commits: one is supplied for each repeated write, so their cursor runs past the end of what was
recorded, by as much as was supplied. That is an account which every step keeps (`Serves.commits_kept`):
what was taken and what is pending are together what was recorded and what was supplied.

`Run.exists_stops` cuts a run at the golden entry where it stopped. What it emitted before that belongs to
the golden entries before, and the account holds of it (`Leaves`); what it emitted afterwards are the fetches
that it skipped while it waited.
-/

namespace Lockstep

/-- What is left of the streams of `p`, in `q`, once `entries` were emitted for golden entries. -/
structure Leaves (golden : List GoldenEntry) (p : Progress) (entries : List ReconciledEntry)
    (q : Progress) : Prop where
  fetches : p.fetches.pending = entries.map (·.toFetch) ++ q.fetches.pending
  fetched : q.fetches.taken = p.fetches.taken + entries.length
  commits : q.commits.taken + q.commits.pending.length =
    p.commits.taken + p.commits.pending.length + entries.countP (·.speculativeCommit)
  accesses : q.accesses.taken + q.accesses.pending.length =
    p.accesses.taken + p.accesses.pending.length
  shadow : q.shadow = (committed (matched golden entries)).foldl .follow p.shadow
  /-- The last entry is that of the last golden entry that was matched. -/
  last : entries.getLast? = (matched golden entries).getLast?.map (·.2)

theorem Leaves.refl (goldens : List GoldenEntry) (p : Progress) : Leaves goldens p [] p := by
  have hmatched : matched goldens [] = [] := by
    cases goldens with
    | nil => rfl
    | cons golden rest => rfl
  refine ⟨rfl, rfl, rfl, rfl, ?_, ?_⟩
  · rw [hmatched]
    rfl
  · rw [hmatched]
    rfl

/-- The fetch that aligned stands where the fetches were left. -/
theorem Leaves.getElem?_fetches {goldens : List GoldenEntry} {golden : GoldenEntry} {p q : Progress}
    {entries : List ReconciledEntry} {skipped later : List Fetch} {fetch : Fetch}
    (h : Leaves goldens p entries q)
    (aligns : Reconciliation.Aligns golden q.fetches.pending skipped fetch later) :
    p.fetches.pending[entries.length + skipped.length]? = some fetch := by
  have hlength : (entries.map (·.toFetch) ++ skipped).length = entries.length + skipped.length := by
    rw [List.length_append, List.length_map]
  rw [h.fetches, aligns.pending_eq, ← List.append_assoc, ← hlength,
    List.getElem?_append_right (Nat.le_refl _), Nat.sub_self, List.getElem?_cons_zero]

namespace Reconciliation

variable {settings : Settings} {golden : GoldenEntry} {rest : List GoldenEntry} {fetch : Fetch}
  {p q : Progress} {skipped later : List Fetch} {entry : ReconciledEntry} {stats : Stats}

/-! ## One golden entry -/

theorem length_promoted (window : Nat) (expected : Option RegisterWrite)
    (pending : List RegisterWrite) : (promoted window expected pending).length = pending.length :=
  (promoted_perm window expected pending).length_eq

/-- A commit that is taken was pending, unless it was supplied. -/
theorem Serves.commits_kept (h : Serves settings golden fetch p entry stats q) :
    q.commits.taken + q.commits.pending.length =
      p.commits.taken + p.commits.pending.length + if entry.speculativeCommit then 1 else 0 := by
  cases h with
  | supplied => exact Nat.add_right_comm ..
  | stored | silent | unknown => rfl
  | observed demand fresh front =>
      have hlength := congrArg List.length front
      rw [length_promoted, List.length_cons] at hlength
      rw [hlength]
      exact Nat.add_right_comm ..

theorem Serves.accesses_kept (h : Serves settings golden fetch p entry stats q) :
    q.accesses.taken + q.accesses.pending.length =
      p.accesses.taken + p.accesses.pending.length := by
  cases h with
  | supplied | observed | silent | unknown => rfl
  | stored demand front =>
      rw [front, List.length_cons]
      exact Nat.add_right_comm ..

/-- A golden entry that is served keeps the account of the entries after it. -/
theorem Serves.leaves (aligns : Aligns golden p.fetches.pending skipped fetch later)
    (serves : Serves settings golden fetch p entry stats q) {entries : List ReconciledEntry}
    {last : Progress}
    (h : Leaves rest
      { q with fetches := { taken := p.fetches.taken + skipped.length + 1, pending := later } }
      entries last) :
    Leaves (golden :: rest) p (skipped.map speculative ++ entry :: entries) last where
  fetches := by
    have hlater : later = entries.map (·.toFetch) ++ last.fetches.pending := h.fetches
    rw [aligns.pending_eq, List.map_append, map_toFetch_speculative, List.map_cons,
      serves.toFetch_eq, hlater, List.append_assoc, List.cons_append]
  fetched := by
    rw [h.fetched, List.length_append, List.length_map, List.length_cons]
    show p.fetches.taken + skipped.length + 1 + entries.length = _
    omega
  commits := by
    rw [h.commits, countP_skipped fun _ => rfl, ← Nat.add_assoc, ← serves.commits_kept]
  accesses := h.accesses.trans serves.accesses_kept
  shadow := by
    rw [h.shadow, matched_served rest aligns serves, committed_cons, List.foldl_append,
      ← serves.shadow_eq]
  last := by
    rw [matched_served rest aligns serves, List.getLast?_append_cons, List.getLast?_cons,
      List.getLast?_cons, h.last, Option.map_some]
    cases (matched rest entries).getLast? with
    | none => rfl
    | some pair => rfl

/-! ## Whole runs -/

variable {index : Nat} {goldens : List GoldenEntry} {r : Reconciliation}

/-- **Where a run stopped.** The golden entries before that one were matched, and all that was emitted
after them are the fetches that were skipped last. -/
theorem Run.exists_stops (h : Run settings index goldens p r) {stream : Stream} {stop : Nat}
    (ho : r.outcome = .exhausted stream stop) :
    ∃ expected consumed last skipped later,
      Stops expected last stream skipped later ∧ Leaves goldens p consumed last ∧
      stop = index + (matched goldens consumed).length ∧
      goldens[(matched goldens consumed).length]? = some expected ∧
      r.entries = consumed ++ skipped.map speculative ∧
      r.cursors = { last.cursors with fetches := last.fetches.taken + skipped.length } := by
  induction h with
  | finished => cases ho
  | @stopped index golden rest p _ skipped later stops =>
      cases ho
      exact ⟨golden, [], p, skipped, later, stops, .refl _ p, rfl, rfl, rfl, rfl⟩
  | @served index golden rest p q skipped later fetch entry stats r aligns serves run ih =>
      -- The run stops where its rest stops; only what was consumed before gets longer.
      obtain ⟨expected, consumed, last, waiting, behind, stops, leaves, hstop, hexpected, hentries,
        hcursors⟩ := ih ho
      have hmatched := matched_served rest aligns serves consumed
      refine ⟨expected, skipped.map speculative ++ entry :: consumed, last, waiting, behind, stops,
        serves.leaves aligns leaves, ?_, ?_, ?_, hcursors⟩
      · rw [hmatched, List.length_cons, hstop]
        omega
      · rw [hmatched, List.length_cons, List.getElem?_cons_succ, hexpected]
      · show skipped.map speculative ++ entry :: r.entries = _
        rw [hentries, List.append_assoc, List.cons_append]

end Reconciliation

/-! ## Whole traces -/

/-- **What ran out has run out**, at the golden entry that is named. Every golden entry before that one was
matched to a fetch, and behind the entry of the last of them there are only fetches that were skipped in
wait for this one.

* Where the fetches ran out, all were taken.
* Where the accesses ran out, all were taken, and the next fetch is the awaited one, of a store.
* Where the commits ran out, all were taken and the supplied ones besides. The next fetch is the awaited
  one and writes a register, and the golden write is not a repeated one. -/
theorem exhausted_reconcile (golden : List GoldenEntry) (trace : DeviceTrace) (settings : Settings)
    {stream : Stream} {i : Nat}
    (ho : (reconcile golden trace settings).outcome = .exhausted stream i) :
    let r := reconcile golden trace settings
    ∃ (expected : GoldenEntry) (consumed : List ReconciledEntry) (skipped : List Fetch),
      golden[i]? = some expected ∧
      (matched golden consumed).map (·.1) = golden.take i ∧
      consumed.getLast? = (matched golden consumed).getLast?.map (·.2) ∧
      r.entries = consumed ++ skipped.map Reconciliation.speculative ∧
      (∀ f ∈ skipped, f.pc ≠ expected.pc) ∧
      match stream with
      | .fetches => r.cursors.fetches = trace.fetches.length
      | .accesses => r.cursors.accesses = trace.accesses.length ∧
          ∃ fetch width, trace.fetches[r.cursors.fetches]? = some fetch ∧
            fetch.pc = expected.pc ∧ fetch.instr.category = .store width
      | .commits =>
          r.cursors.commits =
            trace.commits.length + r.entries.countP (·.speculativeCommit) ∧
          ∃ fetch, trace.fetches[r.cursors.fetches]? = some fetch ∧
            fetch.pc = expected.pc ∧
            fetch.instr.category.writesRegister = true ∧ fetch.instr.targetsZero = false ∧
            ∀ write, expected.registerWrite? = some write →
              ¬ Repeats settings.shadowResetValue (committed (matched golden consumed)) write := by
  intro r
  obtain ⟨expected, consumed, last, skipped, later, stops, leaves, hstop, hexpected, hentries,
    hcursors⟩ := (run_reconcile golden trace settings).exists_stops ho
  rw [Nat.zero_add] at hstop
  subst hstop
  have hprefix := List.prefix_iff_eq_take.1 (map_fst_matched_isPrefix golden consumed)
  rw [List.length_map] at hprefix
  refine ⟨expected, consumed, skipped, hexpected, hprefix, leaves.last, hentries, stops.skipped_ne, ?_⟩
  have hfetches : r.cursors.fetches = consumed.length + skipped.length := by
    have htaken : last.fetches.taken = 0 + consumed.length := leaves.fetched
    rw [hcursors, htaken, Nat.zero_add]
  cases stops with
  | fetches habsent =>
      have hall : trace.fetches = consumed.map (·.toFetch) ++ last.fetches.pending := leaves.fetches
      show r.cursors.fetches = trace.fetches.length
      rw [hfetches, hall, List.length_append, List.length_map]
  | @accesses skipped later fetch width aligns demand empty =>
      have hkept : last.accesses.taken + last.accesses.pending.length =
          0 + trace.accesses.length := leaves.accesses
      rw [empty, Nat.zero_add] at hkept
      refine ⟨?_, fetch, width, ?_, aligns.pc_eq, Instruction.demand_eq_access_iff.1 demand⟩
      · rw [hcursors]
        exact hkept
      · rw [hfetches]
        exact leaves.getElem?_fetches aligns
  | @commits skipped later fetch mayReorder aligns demand fresh empty =>
      have hkept : last.commits.taken + last.commits.pending.length =
          0 + trace.commits.length + consumed.countP (·.speculativeCommit) := leaves.commits
      rw [empty, Nat.zero_add] at hkept
      -- A repeated write would have been supplied, and then the commits would not have run out.
      obtain ⟨hwrites, htarget⟩ := Instruction.exists_demand_eq_commit_iff.1 ⟨mayReorder, demand⟩
      refine ⟨?_, fetch, ?_, aligns.pc_eq, hwrites, htarget, ?_⟩
      · rw [hentries, List.countP_append, countP_speculative fun _ => rfl, hcursors]
        exact hkept
      · rw [hfetches]
        exact leaves.getElem?_fetches aligns
      · intro write hw hrepeats
        have hsome := repeatedWrite?_after_eq_some_iff.2 ⟨hw, hrepeats⟩
        rw [leaves.shadow] at fresh
        cases fresh.symm.trans hsome

/-- The second write repeats and is supplied. The third one waits behind a fetch from another place, and
there is no commit for it. -/
theorem exhausted_reconcile_commits :
    let golden : List GoldenEntry := [
      { pc := 0x100, instr := 0x00500593, targetReg := some 11, regVal := some 5 },
      { pc := 0x104, instr := 0x00500593, targetReg := some 11, regVal := some 5 },
      { pc := 0x108, instr := 0x00700613, targetReg := some 12, regVal := some 7 }]
    let trace : DeviceTrace := {
      fetches := [⟨0x100, 0x00500593⟩, ⟨0x104, 0x00500593⟩, ⟨0x200, 0x13⟩, ⟨0x108, 0x00700613⟩]
      commits := [⟨11, 5⟩] }
    (reconcile golden trace {}).outcome = .exhausted .commits 2 ∧
    (reconcile golden trace {}).cursors.commits = 2 ∧
    ∃ (expected : GoldenEntry) (consumed : List ReconciledEntry) (skipped : List Fetch),
      golden[2]? = some expected ∧
      (reconcile golden trace {}).entries = consumed ++ skipped.map Reconciliation.speculative ∧
      (reconcile golden trace {}).cursors.commits =
        trace.commits.length + (reconcile golden trace {}).entries.countP (·.speculativeCommit) ∧
      ∃ fetch, trace.fetches[(reconcile golden trace {}).cursors.fetches]? = some fetch ∧
        fetch.pc = expected.pc ∧ fetch.instr.targetsZero = false := by
  intro golden trace
  have ho : (reconcile golden trace {}).outcome = .exhausted .commits 2 := by decide
  have htaken : (reconcile golden trace {}).cursors.commits = 2 := by decide
  obtain ⟨expected, consumed, skipped, hexpected, -, -, hentries, -, hcommits, fetch, hfetch, hpc, -,
    htarget, -⟩ := exhausted_reconcile golden trace {} ho
  exact ⟨ho, htaken, expected, consumed, skipped, hexpected, hentries, hcommits, fetch, hfetch, hpc,
    htarget⟩

end Lockstep
