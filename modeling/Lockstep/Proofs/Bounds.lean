import Lockstep.Proofs.Bookkeeping
import Lockstep.Proofs.Exhaustion
import Lockstep.Proofs.Indexed

/-!
# Nothing is out of bounds

A reconciliation by places never meets a `Violation`, whatever the traces and settings are. The cursor into
the commits is never behind their end: that is all it takes, and every operation keeps it so.

What a part of a step does to the arrays is told by what they show (`Yields`), and that is what `Run` says
of feeds. So the two reconciliations agree, as long as a cursor can hold the places.
-/

namespace Lockstep

namespace Stats

theorem add_eq (a b : Stats) :
    a + b =
      { speculativeFetches := a.speculativeFetches + b.speculativeFetches
        unknownInstructions := a.unknownInstructions + b.unknownInstructions
        synthesizedCommits := a.synthesizedCommits + b.synthesizedCommits
        reorderedCommits := a.reorderedCommits + b.reorderedCommits } := rfl

theorem empty_add (a : Stats) : {} + a = a := by
  simp only [add_eq, Nat.zero_add]

theorem add_assoc (a b c : Stats) : a + b + c = a + (b + c) := by
  simp only [add_eq, Nat.add_assoc]

end Stats

namespace Indexed

open Reconciliation (Aligns Serves Stops Run repeatedWrite? speculative expectedWrite? promoted spliced
  aligned)

variable {limit window : Nat} {settings : Settings} {golden : GoldenEntry} {fetch : Fetch}
  {s s' : State} {p q : Progress} {entries : List ReconciledEntry} {stats : Stats}

/-- From `s` on, the entries were emitted and the counts counted, and the arrays of `s'` show `p`. -/
structure Yields (s : State) (entries : List ReconciledEntry) (stats : Stats) (p : Progress)
    (s' : State) : Prop where
  bounds : s'.InBounds
  progress : s'.progress = p
  entries : s'.entries = s.entries ++ entries
  stats : s'.stats = s.stats + stats

namespace Yields

theorem refl (h : s.InBounds) : Yields s [] {} s.progress s :=
  ⟨h, rfl, (List.append_nil _).symm, rfl⟩

theorem trans {t : State} {later : List ReconciledEntry} {more : Stats}
    (h : Yields s entries stats p s') (h' : Yields s' later more q t) :
    Yields s (entries ++ later) (stats + more) q t := by
  refine ⟨h'.bounds, h'.progress, ?_, ?_⟩
  · rw [h'.entries, h.entries, List.append_assoc]
  · rw [h'.stats, h.stats, Stats.add_assoc]

theorem count (h : Yields s entries stats p s') (more : Stats) :
    Yields s entries (stats + more) p { s' with stats := s'.stats + more } := by
  refine ⟨⟨h.bounds.fetches, h.bounds.commits, h.bounds.accesses⟩, h.progress, h.entries, ?_⟩
  show s'.stats + more = _
  rw [h.stats, Stats.add_assoc]

theorem follow (h : Yields s entries stats p s') (golden : GoldenEntry) :
    Yields s entries stats { p with shadow := p.shadow.follow golden }
      { s' with shadow := s'.shadow.follow golden } := by
  have hprogress := h.progress
  subst hprogress
  exact ⟨⟨h.bounds.fetches, h.bounds.commits, h.bounds.accesses⟩, rfl, h.entries, h.stats⟩

/-- The fetch that is at the cursor is emitted. -/
theorem emit (h : Yields s entries stats p s') {later : List Fetch}
    (hp : p.fetches.pending = fetch :: later) (entry : ReconciledEntry) :
    Yields s (entries ++ [entry]) stats
      { p with fetches := { taken := p.fetches.taken + 1, pending := later } }
      { s' with fetches := s'.fetches.advance, entries := s'.entries ++ [entry] } := by
  have hprogress := h.progress
  subst hprogress
  obtain ⟨hbounds, hfeed⟩ := Tape.feed_advance hp
  refine ⟨⟨hbounds, h.bounds.commits, h.bounds.accesses⟩, ?_, ?_, h.stats⟩
  · show Progress.mk s'.fetches.advance.feed _ _ _ = _
    rw [hfeed]
    rfl
  · show s'.entries ++ [entry] = _
    rw [h.entries, List.append_assoc]

end Yields

/-! ## Splicing and dropping -/

theorem repeats_iff {file : RegisterFile} {write : RegisterWrite} :
    file.repeats write = true ↔
      write.reg.toNat ≠ 0 ∧ file[write.reg.toNat]? = some write.value := by
  rw [RegisterFile.repeats, Bool.and_eq_true, bne_iff_ne, beq_iff_eq, RegisterFile.value?,
    ← UInt8.toNat_inj.ne]
  rfl

/-- The index is checked first, so the register that is read is there. -/
theorem splice_eq (golden : GoldenEntry) (s : State) :
    splice golden s =
      match repeatedWrite? s.shadow golden with
      | none => .ok (none, s)
      | some write => do
        let commits ← s.commits.insert write
        return (some write, { s with
          commits
          stats := { s.stats with synthesizedCommits := s.stats.synthesizedCommits + 1 } }) := by
  unfold splice repeatedWrite?
  cases golden.registerWrite? with
  | none => rfl
  | some write =>
      rw [Option.filter_some]
      by_cases hindex : write.reg.toNat = 0 ∨ registerCount ≤ write.reg.toNat
      · have hr : ¬ s.shadow.repeats write = true := by
          rw [repeats_iff]
          rintro ⟨hne, hread⟩
          obtain ⟨hlt, -⟩ := Vector.getElem?_eq_some_iff.1 hread
          omega
        simp only [if_pos hindex, if_neg hr]
      · have hlt : write.reg.toNat < registerCount := by omega
        have hread : s.shadow[write.reg.toNat]? = some s.shadow[write.reg.toNat] :=
          Vector.getElem?_eq_getElem hlt
        have hr : s.shadow.repeats write = true ↔ s.shadow[write.reg.toNat] = write.value := by
          rw [repeats_iff, hread, Option.some.injEq, and_iff_right (by omega)]
        by_cases hv : s.shadow[write.reg.toNat] = write.value
        · simp only [if_neg hindex, readRegister, hread, if_pos (hr.2 hv)]
          simp [hv, bind, Except.bind]
        · simp only [if_neg hindex, readRegister, hread, if_neg (hr.not.2 hv)]
          simp [hv, bind, Except.bind, pure, Except.pure]

theorem splice_eq_ok (h : s.InBounds) (golden : GoldenEntry) :
    ∃ s', splice golden s = .ok (repeatedWrite? s.shadow golden, s') ∧
      Yields s [] { synthesizedCommits := (repeatedWrite? s.shadow golden).toList.length }
        { s.progress with commits := spliced golden s.progress } s' := by
  have hshadow : s.progress.shadow = s.shadow := rfl
  unfold spliced
  rw [splice_eq, hshadow]
  cases repeatedWrite? s.shadow golden with
  | none => exact ⟨s, rfl, .refl h⟩
  | some write =>
      obtain ⟨commits, hinsert, hbounds, hfeed⟩ := Tape.insert_eq_ok h.commits write
      refine ⟨{ s with
        commits
        stats := { s.stats with synthesizedCommits := s.stats.synthesizedCommits + 1 } },
        ?_, ⟨h.fetches, hbounds, h.accesses⟩, ?_, ?_, rfl⟩
      · simp only [hinsert]
        rfl
      · show Progress.mk _ commits.feed _ _ = _
        rw [hfeed]
        rfl
      · exact (List.append_nil _).symm

/-- A commit that was spliced in and not taken is the one that is taken away. -/
theorem drop_eq_ok {write : RegisterWrite} {commits : Feed RegisterWrite}
    (h : Yields s entries stats { p with commits := commits.splice write } s')
    (hcount : stats.synthesizedCommits = 1) :
    ∃ t, drop write s' = .ok t ∧
      Yields s entries { stats with synthesizedCommits := 0 } { p with commits } t := by
  have hfeed : s'.commits.feed = commits.splice write := congrArg Progress.commits h.progress
  obtain ⟨rest, hremove, hbounds, hrest⟩ := Tape.remove_eq_ok h.bounds.commits
    (congrArg Feed.pending hfeed)
  have hsynthesized : s'.stats.synthesizedCommits = s.stats.synthesizedCommits + 1 := by
    rw [h.stats]
    show _ + stats.synthesizedCommits = _
    rw [hcount]
  refine ⟨{ s' with
    commits := rest
    stats := { s'.stats with synthesizedCommits := s'.stats.synthesizedCommits - 1 } },
    ?_, ⟨h.bounds.fetches, hbounds, h.bounds.accesses⟩, ?_, h.entries, ?_⟩
  · unfold drop
    rw [hremove]
    simp [hsynthesized, bind, Except.bind, pure, Except.pure]
  · have hprogress := h.progress
    show Progress.mk s'.progress.fetches rest.feed s'.progress.accesses s'.progress.shadow = _
    rw [hprogress, hrest, hfeed]
    rfl
  · rw [hsynthesized, h.stats]
    rfl

/-! ## Fetches -/

/-- What is skipped is emitted, one fetch after the other. -/
theorem exists_align_eq {skipped later : List Fetch} (h : s.InBounds)
    (hp : s.fetches.feed.pending = skipped ++ later) (hne : ∀ f ∈ skipped, f.pc ≠ golden.pc) :
    ∃ s', align golden s = align golden s' ∧
      Yields s (skipped.map speculative) { speculativeFetches := skipped.length }
        { s.progress with
          fetches := { taken := s.fetches.place + skipped.length, pending := later } } s' := by
  induction skipped generalizing s with
  | nil =>
      rw [List.nil_append] at hp
      subst hp
      exact ⟨s, rfl, .refl h⟩
  | cons first skipped ih =>
      obtain ⟨hfirst, hskipped⟩ := List.forall_mem_cons.1 hne
      rw [List.cons_append] at hp
      obtain ⟨hlt, hcell⟩ := Tape.exists_getElem_eq hp
      have hone := ((Yields.refl h).emit hp (speculative first)).count { speculativeFetches := 1 }
      obtain ⟨s', halign, hrest⟩ :=
        ih hone.bounds (congrArg (·.fetches.pending) hone.progress) hskipped
      refine ⟨s', ?_, ?_⟩
      · rw [← halign, align, dif_pos hlt]
        simp only [hcell, if_neg hfirst]
        rfl
      · have hall := hone.trans hrest
        refine ⟨hall.bounds, hall.progress.trans ?_, hall.entries, hall.stats.trans ?_⟩
        · show Progress.mk ⟨s.fetches.place + 1 + skipped.length, later⟩ _ _ _ = _
          rw [Nat.add_right_comm]
          rfl
        · simp only [Stats.add_eq, List.length_cons, Stats.mk.injEq, and_true]
          omega

theorem align_of_front {later : List Fetch} (hp : s.fetches.feed.pending = fetch :: later)
    (hpc : fetch.pc = golden.pc) : align golden s = (some fetch, s) := by
  obtain ⟨hlt, hcell⟩ := Tape.exists_getElem_eq hp
  rw [align, dif_pos hlt]
  simp only [hcell, if_pos hpc]

theorem align_of_end (hp : s.fetches.feed.pending = []) : align golden s = (none, s) := by
  rw [align, dif_neg (Nat.not_lt.2 (List.drop_eq_nil_iff.1 hp))]

/-! ## Commits -/

/-- How far the search for a commit can see, with the window cut off at the largest place. -/
def outlook (limit window : Nat) (s : State) : Nat := min window (limit - s.commits.place)

theorem bringForward_eq_ok (h : s.InBounds) (limit window : Nat)
    (expected : Option RegisterWrite) :
    ∃ s', bringForward limit window expected s = .ok s' ∧
      Yields s []
        { reorderedCommits := if (Reconciliation.bringForward (outlook limit window s) expected
            s.commits.feed).1.isSome then 1 else 0 }
        { s.progress with
          commits := (Reconciliation.bringForward (outlook limit window s) expected
            s.commits.feed).2 } s' := by
  cases expected with
  | none => exact ⟨s, rfl, .refl h⟩
  | some write =>
      have hsearch : s.commits.search limit write window =
          Lookahead.search write (outlook limit window s) s.commits.feed.pending :=
        Tape.search_eq limit write window h.commits
      cases hs : Lookahead.search write (outlook limit window s) s.commits.feed.pending with
      | inPlace | notFound =>
          have hmoved : Reconciliation.bringForward (outlook limit window s) (some write)
              s.commits.feed = (none, s.commits.feed) := by
            simp only [Reconciliation.bringForward, Lookahead.promote, hs]
          rw [hmoved]
          refine ⟨s, ?_, .refl h⟩
          simp only [bringForward, hsearch, hs]
      | found offset =>
          have hmoved : Reconciliation.bringForward (outlook limit window s) (some write)
              s.commits.feed = (some offset, s.commits.feed.withPending
                (Lookahead.exchange offset s.commits.feed.pending)) := by
            simp only [Reconciliation.bringForward, Lookahead.promote, hs]
          obtain ⟨-, hfound⟩ := Lookahead.of_search_eq_found hs
          obtain ⟨hlt, -⟩ := List.getElem?_eq_some_iff.1 hfound
          obtain ⟨commits, hswap, hbounds, hfeed⟩ := Tape.swap_eq_ok h.commits hlt
          rw [hmoved]
          refine ⟨{ s with
            commits
            stats := { s.stats with reorderedCommits := s.stats.reorderedCommits + 1 } },
            ?_, ⟨h.fetches, hbounds, h.accesses⟩, ?_, (List.append_nil _).symm, rfl⟩
          · simp only [bringForward, hsearch, hs, hswap]
            rfl
          · show Progress.mk _ commits.feed _ _ = _
            rw [hfeed]
            rfl

theorem takeCommit_of_front {mayReorder : Bool} {commit : RegisterWrite}
    {later : List RegisterWrite} (h : s.InBounds)
    (hfront : promoted (outlook limit window s) (expectedWrite? mayReorder golden)
      s.commits.feed.pending = commit :: later) :
    ∃ s', takeCommit limit window mayReorder golden s = .ok (some commit, s') ∧
      Yields s []
        { reorderedCommits := if (Reconciliation.bringForward (outlook limit window s)
            (expectedWrite? mayReorder golden) s.commits.feed).1.isSome then 1 else 0 }
        { s.progress with commits := { taken := s.commits.place + 1, pending := later } } s' := by
  have hlt : ¬ s.commits.cells.length ≤ s.commits.place := by
    rw [← List.drop_eq_nil_iff]
    intro hnil
    have hnil : promoted (outlook limit window s) (expectedWrite? mayReorder golden)
      s.commits.feed.pending = [] := Reconciliation.promoted_eq_nil_iff.2 hnil
    rw [hfront] at hnil
    cases hnil
  obtain ⟨s', hbring, hyields⟩ :=
    bringForward_eq_ok h limit window (expectedWrite? mayReorder golden)
  rw [Reconciliation.bringForward_snd, hfront] at hyields
  have hcommits : s'.commits.feed = s.commits.feed.withPending (commit :: later) :=
    congrArg Progress.commits hyields.progress
  obtain ⟨hbounds, hadvance⟩ := Tape.feed_advance (congrArg Feed.pending hcommits)
  have hfirst : s'.commits.feed.pending[0]? = some commit := congrArg (·.pending[0]?) hcommits
  have hread : s'.commits.read s'.commits.place = .ok commit := Tape.read_of_pending hfirst
  refine ⟨{ s' with commits := s'.commits.advance }, ?_,
    ⟨hyields.bounds.fetches, hbounds, hyields.bounds.accesses⟩, ?_, hyields.entries, hyields.stats⟩
  · unfold takeCommit
    rw [if_neg hlt]
    unfold expectedWrite? at hbring
    simp only [hbring, hread, bind, Except.bind, pure, Except.pure]
  · have hprogress := hyields.progress
    show Progress.mk s'.progress.fetches s'.commits.advance.feed s'.progress.accesses
      s'.progress.shadow = _
    rw [hprogress, hadvance]
    have hplace : s'.commits.place = s.commits.place := congrArg Feed.taken hcommits
    rw [hplace]

theorem takeCommit_of_empty {mayReorder : Bool} (h : s.commits.feed.pending = []) :
    takeCommit limit window mayReorder golden s = .ok (none, s) := by
  rw [takeCommit, if_pos (List.drop_eq_nil_iff.1 h)]

/-! ## Effects -/

theorem takeEffect_of_commit {mayReorder : Bool} (hd : fetch.instr.demand = .commit mayReorder) :
    takeEffect limit window golden fetch s = do
      match ← takeCommit limit window mayReorder golden s with
      | (none, _) => return .error .commits
      | (some commit, s) =>
        return .ok {
          state := { s with shadow := s.shadow.follow golden }
          effect := .ofWrite commit
          tookCommit := true } := by
  unfold takeEffect
  rcases Instruction.demand_eq_commit_iff.1 hd with ⟨hz, rfl, hc | hc⟩ | ⟨hz, rfl, hc⟩
  all_goals
    simp only [hc, hz]
    rfl

theorem takeEffect_of_access {width : StoreWidth} (hd : fetch.instr.demand = .access width) :
    takeEffect limit window golden fetch s =
      match s.accesses.current? with
      | none => .ok (.error .accesses)
      | some access =>
        .ok (.ok {
          state := { s with accesses := s.accesses.advance }
          effect := .ofStore access.address
            (width.narrow access.raw (golden.memAddr.getD access.address)) }) := by
  unfold takeEffect
  cases s.accesses.current? with
  | none => simp only [Instruction.demand_eq_access_iff.1 hd]
  | some access => simp only [Instruction.demand_eq_access_iff.1 hd]

theorem takeEffect_of_nothing (hd : fetch.instr.demand = .nothing) :
    takeEffect limit window golden fetch s = .ok (.ok { state := s }) := by
  unfold takeEffect
  rcases Instruction.demand_eq_nothing_iff.1 hd with ⟨hz, hc | hc | hc⟩ | hc | hc <;> simp [*]

theorem takeEffect_of_unknown (hd : fetch.instr.demand = .unknown) :
    takeEffect limit window golden fetch s =
      .ok (.ok {
        state := { s with
          stats := { s.stats with unknownInstructions := s.stats.unknownInstructions + 1 } }
        isUnknown := true }) := by
  unfold takeEffect
  simp only [Instruction.demand_eq_unknown_iff.1 hd]

theorem takeEffect_of_taken {mayReorder : Bool} {commit : RegisterWrite}
    {later : List RegisterWrite} (h : s.InBounds) (hd : fetch.instr.demand = .commit mayReorder)
    (hfront : promoted (outlook limit window s) (expectedWrite? mayReorder golden)
      s.commits.feed.pending = commit :: later) :
    ∃ s', takeEffect limit window golden fetch s =
        .ok (.ok { state := s', effect := .ofWrite commit, tookCommit := true }) ∧
      Yields s []
        { reorderedCommits := if (Reconciliation.bringForward (outlook limit window s)
            (expectedWrite? mayReorder golden) s.commits.feed).1.isSome then 1 else 0 }
        { s.progress with
          commits := { taken := s.commits.place + 1, pending := later }
          shadow := s.shadow.follow golden } s' := by
  obtain ⟨s', htake, hyields⟩ := takeCommit_of_front h hfront
  refine ⟨{ s' with shadow := s'.shadow.follow golden }, ?_, hyields.follow golden⟩
  rw [takeEffect_of_commit hd, htake]
  rfl

theorem takeEffect_of_stored {width : StoreWidth} {access : MemoryAccess}
    {later : List MemoryAccess} (h : s.InBounds) (hd : fetch.instr.demand = .access width)
    (hfront : s.accesses.feed.pending = access :: later) :
    ∃ s', takeEffect limit window golden fetch s =
        .ok (.ok {
          state := s'
          effect := .ofStore access.address
            (width.narrow access.raw (golden.memAddr.getD access.address)) }) ∧
      Yields s [] {}
        { s.progress with accesses := { taken := s.accesses.place + 1, pending := later } } s' := by
  obtain ⟨hbounds, hadvance⟩ := Tape.feed_advance hfront
  have hcurrent : s.accesses.current? = some access := by
    rw [Tape.current?_eq_head?, hfront]
    rfl
  refine ⟨{ s with accesses := s.accesses.advance }, ?_, ⟨h.fetches, h.commits, hbounds⟩, ?_,
    (List.append_nil _).symm, rfl⟩
  · rw [takeEffect_of_access hd, hcurrent]
  · show Progress.mk _ _ s.accesses.advance.feed _ = _
    rw [hadvance]
    rfl

theorem settle_of_took {spliced : Option RegisterWrite} {taken : Taken}
    (h : taken.tookCommit = true) : settle spliced taken = .ok taken.state := by
  cases spliced with
  | none => rfl
  | some write => exact if_pos h

/-! ## One golden entry -/

/-- The state that waits for the awaited fetch: the golden write is spliced in if it repeats, and the
fetches before are skipped. -/
theorem exists_waiting {skipped later : List Fetch} (h : s.InBounds)
    (hp : s.fetches.feed.pending = skipped ++ later) (hne : ∀ f ∈ skipped, f.pc ≠ golden.pc) :
    ∃ spliced waiting, splice golden s = .ok (repeatedWrite? s.shadow golden, spliced) ∧
      align golden spliced = align golden waiting ∧
      Yields s (skipped.map speculative)
        { speculativeFetches := skipped.length
          synthesizedCommits := (repeatedWrite? s.shadow golden).toList.length }
        (aligned golden s.progress skipped later) waiting := by
  obtain ⟨spliced, hsplice, hspliced⟩ := splice_eq_ok h golden
  have hfetches : spliced.fetches.feed = s.fetches.feed :=
    congrArg Progress.fetches hspliced.progress
  obtain ⟨waiting, halign, hwaiting⟩ := exists_align_eq hspliced.bounds (hfetches ▸ hp) hne
  refine ⟨spliced, waiting, hsplice, halign, ?_⟩
  have hall := hspliced.trans hwaiting
  refine ⟨hall.bounds, hall.progress.trans ?_, hall.entries, hall.stats.trans ?_⟩
  · have hplace : spliced.fetches.place = s.fetches.place := congrArg Feed.taken hfetches
    rw [hspliced.progress, hplace]
    rfl
  · simp only [Stats.add_eq, Nat.zero_add, Nat.add_zero]

/-- A fetch that took no commit leaves the commits as they were before the splice. -/
theorem settle_eq_ok (stats : Stats) (p q : Progress) {taken : Taken} (hy : Yields s entries
      { stats with synthesizedCommits := (repeatedWrite? p.shadow golden).toList.length }
      { q with commits := spliced golden p } taken.state)
    (hnone : taken.tookCommit = false) :
    ∃ t, settle (repeatedWrite? p.shadow golden) taken = .ok t ∧
      Yields s entries { stats with synthesizedCommits := 0 } { q with commits := p.commits } t := by
  unfold spliced at hy
  unfold settle
  cases hr : repeatedWrite? p.shadow golden with
  | none =>
      rw [hr] at hy
      exact ⟨taken.state, rfl, hy⟩
  | some write =>
      rw [hr] at hy
      have hspliced : Yields s entries { stats with synthesizedCommits := 1 }
        { q with commits := p.commits.splice write } taken.state := hy
      obtain ⟨t, hdrop, hsettled⟩ := drop_eq_ok hspliced rfl
      simp only [hnone]
      exact ⟨t, hdrop, hsettled⟩

/-- The golden entry at which a stream runs out. -/
theorem step_of_stops {stream : Stream} {skipped later : List Fetch} (h : s.InBounds)
    (hs : Stops golden s.progress stream skipped later) :
    ∃ s', step limit settings golden s = .ok (some stream, s') ∧
      Yields s (skipped.map speculative)
        { speculativeFetches := skipped.length
          synthesizedCommits := (repeatedWrite? s.shadow golden).toList.length }
        (aligned golden s.progress skipped later) s' := by
  obtain ⟨spliced, waiting, hsplice, halign, hyields⟩ := exists_waiting h hs.pending_eq hs.skipped_ne
  refine ⟨waiting, ?_, hyields⟩
  have hfetches : waiting.fetches.feed.pending = later :=
    congrArg (·.fetches.pending) hyields.progress
  unfold step
  rw [hsplice]
  cases hs with
  | fetches habsent =>
      have hend : align golden spliced = (none, waiting) := halign.trans (align_of_end hfetches)
      simp only [hend, bind, Except.bind]
      rfl
  | accesses aligns demand empty =>
      have hfront : align golden spliced = (some _, waiting) :=
        halign.trans (align_of_front hfetches aligns.pc_eq)
      have hnone : waiting.accesses.current? = none := by
        have hkept : waiting.accesses.feed = s.accesses.feed :=
          congrArg Progress.accesses hyields.progress
        rw [Tape.current?_eq_head?, hkept]
        exact congrArg List.head? empty
      simp only [hfront, takeEffect_of_access demand, hnone, bind, Except.bind]
      rfl
  | commits aligns demand fresh empty =>
      have hfront : align golden spliced = (some _, waiting) :=
        halign.trans (align_of_front hfetches aligns.pc_eq)
      have hempty : waiting.commits.feed.pending = [] := by
        have hkept : waiting.commits.feed = Reconciliation.spliced golden s.progress :=
          congrArg Progress.commits hyields.progress
        rw [hkept, Reconciliation.spliced, fresh]
        exact empty
      simp only [hfront, takeEffect_of_commit demand, takeCommit_of_empty hempty, bind, Except.bind]
      rfl

theorem step_of_taken {waiting t : State} {taken : Taken}
    (hsplice : splice golden s = .ok (repeatedWrite? s.shadow golden, s'))
    (halign : align golden s' = (some fetch, waiting))
    (htake : takeEffect limit settings.reorderWindow golden fetch waiting = .ok (.ok taken))
    (hsettle : settle (repeatedWrite? s.shadow golden) taken = .ok t) :
    step limit settings golden s = .ok (none, { t with
      fetches := t.fetches.advance
      entries := t.entries ++ [{
        toFetch := fetch
        toEffect := taken.effect
        speculativeFetch := taken.isUnknown
        speculativeCommit := (repeatedWrite? s.shadow golden).isSome && taken.tookCommit }] }) := by
  unfold step
  rw [hsplice]
  simp only [halign, htake, hsettle, bind, Except.bind]
  rfl

/-- The golden entry whose fetch takes no commit. -/
theorem step_of_untouched {skipped later : List Fetch} {waiting : State} {taken : Taken}
    (accesses : Feed MemoryAccess) (unknown : Nat)
    (hsplice : splice golden s = .ok (repeatedWrite? s.shadow golden, s'))
    (halign : align golden s' = (some fetch, waiting))
    (htake : takeEffect limit settings.reorderWindow golden fetch waiting = .ok (.ok taken))
    (hnone : taken.tookCommit = false)
    (hy : Yields s (skipped.map speculative)
      { speculativeFetches := skipped.length
        unknownInstructions := unknown
        synthesizedCommits := (repeatedWrite? s.shadow golden).toList.length }
      { aligned golden s.progress skipped (fetch :: later) with accesses } taken.state) :
    ∃ t, step limit settings golden s = .ok (none, t) ∧
      Yields s
        (skipped.map speculative ++ [{
          toFetch := fetch, toEffect := taken.effect, speculativeFetch := taken.isUnknown }])
        { speculativeFetches := skipped.length, unknownInstructions := unknown }
        { s.progress with
          accesses
          fetches := { taken := s.fetches.place + skipped.length + 1, pending := later } } t := by
  obtain ⟨t, hsettle, hsettled⟩ := settle_eq_ok
    { speculativeFetches := skipped.length, unknownInstructions := unknown } s.progress
    { aligned golden s.progress skipped (fetch :: later) with accesses } hy hnone
  refine ⟨_, step_of_taken hsplice halign htake hsettle, ?_⟩
  rw [hnone, Bool.and_false]
  exact hsettled.emit rfl _

/-- The golden entry that is served, as if a search saw only what it can see. -/
theorem step_of_serves {skipped later : List Fetch} {entry : ReconciledEntry} (h : s.InBounds)
    (ha : Aligns golden s.progress.fetches.pending skipped fetch later)
    (hs : Serves { settings with reorderWindow := outlook limit settings.reorderWindow s } golden fetch
      s.progress entry stats q) :
    ∃ s', step limit settings golden s = .ok (none, s') ∧
      Yields s (skipped.map speculative ++ [entry]) { stats with speculativeFetches := skipped.length }
        { q with fetches := { taken := s.fetches.place + skipped.length + 1, pending := later } } s' := by
  obtain ⟨spliced, waiting, hsplice, halign, hyields⟩ := exists_waiting h ha.pending_eq ha.skipped_ne
  have hfetches : waiting.fetches.feed.pending = fetch :: later :=
    congrArg (·.fetches.pending) hyields.progress
  have hfront : align golden spliced = (some fetch, waiting) :=
    halign.trans (align_of_front hfetches ha.pc_eq)
  have hcommits : waiting.commits.feed = Reconciliation.spliced golden s.progress :=
    congrArg Progress.commits hyields.progress
  have hshadow : waiting.shadow = s.shadow := congrArg Progress.shadow hyields.progress
  cases hs with
  | silent demand =>
      exact step_of_untouched s.accesses.feed 0 hsplice hfront (takeEffect_of_nothing demand) rfl
        hyields
  | unknown demand =>
      exact step_of_untouched s.accesses.feed 1 hsplice hfront (takeEffect_of_unknown demand) rfl
        (hyields.count { unknownInstructions := 1 })
  | @stored width access rest demand front =>
      have hkept : waiting.accesses.feed = s.accesses.feed :=
        congrArg Progress.accesses hyields.progress
      obtain ⟨t, htake, hstored⟩ := takeEffect_of_stored hyields.bounds demand
        (by rw [hkept]; exact front)
      have hall := hyields.trans hstored
      have hplace : waiting.accesses.place = s.accesses.place := congrArg Feed.taken hkept
      rw [hyields.progress, List.append_nil, hplace] at hall
      exact step_of_untouched { taken := s.accesses.place + 1, pending := rest } 0 hsplice hfront htake
        rfl hall
  | @supplied mayReorder write demand repeated =>
      -- The write that was spliced in stands in front, so it is the one that is taken.
      obtain ⟨hw, -⟩ := Reconciliation.repeatedWrite?_eq_some_iff.1 repeated
      have hrepeated : repeatedWrite? s.shadow golden = some write := repeated
      have hkept : waiting.commits.feed = s.commits.feed.splice write := by
        rw [hcommits, Reconciliation.spliced, repeated]
        rfl
      have hplace : waiting.commits.place = s.commits.place := congrArg Feed.taken hkept
      have hstays := Reconciliation.bringForward_of_front
        (outlook limit settings.reorderWindow waiting) mayReorder hw
        (congrArg Feed.pending hkept)
      have hfound : promoted (outlook limit settings.reorderWindow waiting)
          (expectedWrite? mayReorder golden) waiting.commits.feed.pending =
            write :: s.commits.feed.pending := by
        rw [hkept]
        exact Reconciliation.promoted_of_front _ mayReorder hw _
      obtain ⟨t, htake, htaken⟩ := takeEffect_of_taken hyields.bounds demand hfound
      rw [hstays, hyields.progress, hshadow, hplace] at htaken
      refine ⟨_, step_of_taken hsplice hfront htake (settle_of_took rfl), ?_⟩
      rw [hrepeated] at hyields ⊢
      have hemit := (hyields.trans htaken).emit rfl
        { toFetch := fetch, toEffect := .ofWrite write, speculativeCommit := true }
      rw [List.append_nil, Reconciliation.follow_of_repeated hrepeated] at hemit
      exact hemit
  | @observed mayReorder commit rest demand fresh front =>
      -- Nothing was spliced in, so the commits are searched as they were.
      have hfresh : repeatedWrite? s.shadow golden = none := fresh
      have hkept : waiting.commits.feed = s.commits.feed := by
        rw [hcommits, Reconciliation.spliced, fresh]
        rfl
      have hplace : waiting.commits.place = s.commits.place := congrArg Feed.taken hkept
      have hsees : outlook limit settings.reorderWindow waiting =
          outlook limit settings.reorderWindow s := by rw [outlook, hplace, outlook]
      have hfound : promoted (outlook limit settings.reorderWindow waiting)
          (expectedWrite? mayReorder golden) waiting.commits.feed.pending = commit :: rest := by
        rw [hkept, hsees]
        exact front
      obtain ⟨t, htake, htaken⟩ := takeEffect_of_taken hyields.bounds demand hfound
      rw [hsees, hkept, hyields.progress, hshadow, hplace] at htaken
      refine ⟨_, step_of_taken hsplice hfront htake (settle_of_took rfl), ?_⟩
      rw [hfresh] at hyields ⊢
      have hemit := (hyields.trans htaken).emit rfl { toFetch := fetch, toEffect := .ofWrite commit }
      rw [List.append_nil, Stats.add_eq] at hemit
      simp only [List.length_nil, Option.toList, Nat.zero_add, Nat.add_zero] at hemit
      exact hemit

/-! ## Whole runs -/

/-- **Nothing goes wrong** from a state that is in bounds. -/
theorem exists_walk_eq_ok (limit : Nat) (settings : Settings) (index : Nat)
    (goldens : List GoldenEntry) (h : s.InBounds) :
    ∃ r, walk limit settings index goldens s = .ok r := by
  induction goldens generalizing index s with
  | nil => exact ⟨_, rfl⟩
  | cons golden rest ih =>
      -- The search may be cut off short here, so the cases are those of a run with the window that is left.
      rcases Reconciliation.stops_or_serves
          { settings with reorderWindow := outlook limit settings.reorderWindow s } golden s.progress with
        ⟨stream, skipped, later, hs⟩ | ⟨skipped, fetch, later, entry, stats, q, ha, hs⟩
      · obtain ⟨s', hstep, -⟩ := step_of_stops h hs
        exact ⟨_, by rw [walk, hstep]; rfl⟩
      · obtain ⟨s', hstep, hyields⟩ := step_of_serves h ha hs
        obtain ⟨r, hwalk⟩ := ih (index + 1) hyields.bounds
        exact ⟨r, by rw [walk, hstep]; exact hwalk⟩

/-- Where a place behind the last commit is still a number, a search sees as far as it may. -/
theorem serves_outlook {entry : ReconciledEntry} (h : s.InBounds)
    (hfits : s.commits.cells.length ≤ limit)
    (hs : Serves settings golden fetch s.progress entry stats q) :
    Serves { settings with reorderWindow := outlook limit settings.reorderWindow s } golden fetch
      s.progress entry stats q := by
  have hlength : s.commits.feed.pending.length ≤ limit - s.commits.place := by
    rw [Tape.length_cells h.commits] at hfits
    exact Nat.le_sub_of_add_le' hfits
  have hsame (expected : Option RegisterWrite) :
      Reconciliation.bringForward (outlook limit settings.reorderWindow s) expected s.commits.feed =
        Reconciliation.bringForward settings.reorderWindow expected s.commits.feed := by
    cases expected with
    | none => rfl
    | some write =>
        simp only [Reconciliation.bringForward, Lookahead.promote, outlook,
          Lookahead.search_min hlength]
  cases hs with
  | supplied demand repeated => exact .supplied demand repeated
  | stored demand front => exact .stored demand front
  | silent demand => exact .silent demand
  | unknown demand => exact .unknown demand
  | @observed mayReorder commit rest demand fresh front =>
      have hfront : promoted (outlook limit settings.reorderWindow s)
          (expectedWrite? mayReorder golden) s.progress.commits.pending = commit :: rest := by
        have hpending := congrArg (·.2.pending) (hsame (expectedWrite? mayReorder golden))
        simp only [Reconciliation.bringForward_snd, Feed.withPending] at hpending
        exact hpending.trans front
      have hserves : Serves { settings with reorderWindow := outlook limit settings.reorderWindow s }
        golden fetch s.progress _ _ _ := .observed demand fresh hfront
      have hcommits : s.progress.commits = s.commits.feed := rfl
      rw [hcommits, hsame] at hserves
      exact hserves

/-- **What the arrays give is what the feeds give.** -/
theorem walk_of_run {index : Nat} {goldens : List GoldenEntry} {r : Reconciliation}
    (h : Run settings index goldens p r) (hb : s.InBounds) (hp : s.progress = p)
    (hfits : s.commits.cells.length + goldens.length ≤ limit) :
    walk limit settings index goldens s =
      .ok { r with entries := s.entries ++ r.entries, stats := s.stats + r.stats } := by
  induction h generalizing s with
  | finished =>
      subst hp
      rw [walk, State.finish, List.append_nil]
      rfl
  | @stopped index golden rest p stream skipped later stops =>
      subst hp
      obtain ⟨s', hstep, hyields⟩ := step_of_stops hb stops
      rw [walk, hstep]
      show Except.ok (s'.finish _) = _
      rw [State.finish, hyields.progress, hyields.entries, hyields.stats,
        Reconciliation.cursors_aligned]
      rfl
  | @served index golden rest p q skipped later fetch entry stats r aligns serves run ih =>
      subst hp
      have hnow : s.commits.cells.length ≤ limit := by omega
      obtain ⟨s', hstep, hyields⟩ := step_of_serves hb aligns (serves_outlook hb hnow serves)
      -- A step supplies one commit at most.
      have hlater : s'.commits.cells.length + rest.length ≤ limit := by
        have hkept := serves.commits_kept
        have hcommits : s'.commits.feed = q.commits := congrArg Progress.commits hyields.progress
        rw [Tape.length_cells hyields.bounds.commits, hcommits, hkept]
        rw [Tape.length_cells hb.commits, List.length_cons] at hfits
        show s.commits.feed.taken + s.commits.feed.pending.length + _ + rest.length ≤ limit
        split <;> omega
      rw [walk, hstep]
      refine (ih hyields.bounds hyields.progress hlater).trans ?_
      rw [hyields.entries, hyields.stats, Stats.add_assoc]
      simp only [List.append_assoc, List.singleton_append]

end Indexed

/-! ## Whole traces -/

/-- **A reconciliation by places never goes wrong.** Whatever the traces, the window and the largest place
are, every commit is spliced in at a place that is there, taken away at one that is there and equal to the
one spliced in, exchanged and read at places that are there; every register that is looked up exists, and no
count of zero is lowered. As long as the largest place is not behind the commits that there can be, what
comes out is what `reconcile` gives. -/
theorem reconcile_in_bounds (limit : Nat) (golden : List GoldenEntry) (trace : DeviceTrace)
    (settings : Settings) :
    (∃ r, Indexed.reconcile limit golden trace settings = .ok r) ∧
      (trace.commits.length + golden.length ≤ limit →
        Indexed.reconcile limit golden trace settings = .ok (reconcile golden trace settings)) := by
  have hstart : (Indexed.State.start settings trace).InBounds :=
    ⟨Nat.zero_le _, Nat.zero_le _, Nat.zero_le _⟩
  refine ⟨Indexed.exists_walk_eq_ok limit settings 0 golden hstart, fun hfits => ?_⟩
  have hwalk := Indexed.walk_of_run (run_reconcile golden trace settings) hstart rfl hfits
  have hstats : (Indexed.State.start settings trace).stats +
      (reconcile golden trace settings).stats = (reconcile golden trace settings).stats :=
    Stats.empty_add _
  rw [hstats] at hwalk
  exact hwalk

/-- Places are numbers of 64 bits, and the window is as large as they can be. The first write is to a
register that does not exist, the second one repeats, but its instruction takes no commit, so what was
spliced in is taken away again; the third one is looked for, and exchanged, behind two others. -/
theorem reconcile_in_bounds_of_largest_window :
    let limit := 0xFFFFFFFFFFFFFFFF
    let golden : List GoldenEntry := [
      { pc := 0x100, instr := 0x00500593, targetReg := some 255, regVal := some 0 },
      { pc := 0x104, instr := 0x00000063, targetReg := some 12, regVal := some 0 },
      { pc := 0x108, instr := 0x00700613, targetReg := some 12, regVal := some 7 }]
    let trace : DeviceTrace := {
      fetches := golden.map (·.toFetch)
      commits := [⟨11, 5⟩, ⟨9, 1⟩, ⟨10, 2⟩, ⟨12, 7⟩] }
    let settings : Settings := { reorderWindow := limit }
    trace.commits.length + golden.length ≤ limit ∧
      (reconcile golden trace settings).stats = { reorderedCommits := 1 } ∧
      Indexed.reconcile limit golden trace settings = .ok (reconcile golden trace settings) := by
  intro limit golden trace settings
  have hfits : trace.commits.length + golden.length ≤ limit := by decide
  have hstats : (reconcile golden trace settings).stats = { reorderedCommits := 1 } := by decide
  exact ⟨hfits, hstats, (reconcile_in_bounds limit golden trace settings).2 hfits⟩

end Lockstep
