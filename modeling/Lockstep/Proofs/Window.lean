import Lockstep.Proofs.Soundness

/-!
# Larger windows and longer recordings

How far a reconciliation looks ahead is a setting, and how much there is to look at is a matter of when the
recording ended. With a larger window, or with more commits behind the last ones, it may find a commit that
it left where it was before, and then everything behind that commit goes another way. This cannot happen
where nothing is wrong: there every golden write got to the front, and the search takes the nearest commit
that is equal to it, so it does the same however much further it can look (`bringForward_extend`). The two
runs are then one run, but for the recording that is left over (`Run.extend`).

* `verify_of_larger_window`: a larger window never breaks a pass.
* `verify_of_longer_recording`: a pass does not hang on where the recording ended.
-/

namespace Lockstep

/-- A stream with more elements at its end. -/
def Feed.extend {α : Type} (feed : Feed α) (further : List α) : Feed α :=
  { feed with pending := feed.pending ++ further }

theorem Feed.extend_nil {α : Type} (feed : Feed α) : feed.extend [] = feed := by
  rw [Feed.extend, List.append_nil]

/-- The state in which more was recorded. -/
def Progress.extend (p : Progress) (further : DeviceTrace) : Progress :=
  { p with
    fetches := p.fetches.extend further.fetches
    commits := p.commits.extend further.commits
    accesses := p.accesses.extend further.accesses }

theorem Progress.extend_empty (p : Progress) : p.extend {} = p := by
  unfold Progress.extend
  rw [Feed.extend_nil, Feed.extend_nil, Feed.extend_nil]

/-- A recording that goes on. -/
instance : Append DeviceTrace where
  append trace further :=
    { fetches := trace.fetches ++ further.fetches
      commits := trace.commits ++ further.commits
      accesses := trace.accesses ++ further.accesses }

namespace Reconciliation

/-- Where the golden write gets to the front, it makes no difference to look further. -/
theorem bringForward_extend {window larger : Nat} (hle : window ≤ larger) {mayReorder : Bool}
    {golden : GoldenEntry} {write : RegisterWrite} {commits : Feed RegisterWrite}
    {later : List RegisterWrite} (hw : golden.registerWrite? = some write)
    (hfront : promoted window (expectedWrite? mayReorder golden) commits.pending = write :: later)
    (further : List RegisterWrite) :
    bringForward larger (expectedWrite? mayReorder golden) (commits.extend further) =
      ((bringForward window (expectedWrite? mayReorder golden) commits).1,
        (bringForward window (expectedWrite? mayReorder golden) commits).2.extend further) := by
  -- Without an exchange the write was in front before, and then no window displaces it.
  have hstays : commits.pending = write :: later →
      bringForward larger (expectedWrite? mayReorder golden) (commits.extend further) =
        ((bringForward window (expectedWrite? mayReorder golden) commits).1,
          (bringForward window (expectedWrite? mayReorder golden) commits).2.extend further) := by
    intro hpending
    have hextended : (commits.extend further).pending = write :: (later ++ further) := by
      rw [Feed.extend, hpending, List.cons_append]
    rw [bringForward_of_front larger mayReorder hw hextended,
      bringForward_of_front window mayReorder hw hpending]
  cases mayReorder with
  | false => rfl
  | true =>
      rw [expectedWrite?, if_pos rfl, hw] at hfront hstays ⊢
      cases hs : Lookahead.search write window commits.pending with
      | found offset =>
          have hlonger : commits.pending.take window <+: (commits.pending ++ further).take larger := by
            refine List.IsPrefix.trans ?_ (List.take_prefix_take_left hle)
            rw [List.take_append]
            exact List.prefix_append _ _
          have hlarger := Lookahead.search_eq_found_of_prefix hlonger hs
          obtain ⟨-, hfound⟩ := Lookahead.of_search_eq_found hs
          obtain ⟨hlength, -⟩ := List.getElem?_eq_some_iff.1 hfound
          simp only [bringForward, Lookahead.promote, Feed.extend, Feed.withPending, hs, hlarger,
            Lookahead.exchange_append hlength]
      | inPlace | notFound =>
          apply hstays
          simp only [promoted, Lookahead.promote, hs] at hfront
          exact hfront

variable {settings : Settings} {larger : Nat}

theorem Aligns.extend {golden : GoldenEntry} {pending skipped later : List Fetch} {fetch : Fetch}
    (h : Aligns golden pending skipped fetch later) (further : List Fetch) :
    Aligns golden (pending ++ further) skipped fetch (later ++ further) := by
  refine ⟨?_, h.skipped_ne, h.pc_eq⟩
  rw [h.pending_eq, List.append_assoc, List.cons_append]

/-- An entry that agrees with its golden one is served in the same way by whoever looks further. -/
theorem Serves.extend (hle : settings.reorderWindow ≤ larger) {golden : GoldenEntry} {fetch : Fetch}
    {p q : Progress} {entry : ReconciledEntry} {stats : Stats}
    (h : Serves settings golden fetch p entry stats q)
    (hrecord : golden.normalized settings = entry.record) (further : DeviceTrace) :
    Serves { settings with reorderWindow := larger } golden fetch (p.extend further) entry stats
      (q.extend further) := by
  cases h with
  | supplied demand repeated => exact .supplied demand repeated
  | silent demand => exact .silent demand
  | unknown demand => exact .unknown demand
  | @stored width access later demand front =>
      have hfront : (p.extend further).accesses.pending = access :: (later ++ further.accesses) := by
        show p.accesses.pending ++ further.accesses = _
        rw [front, List.cons_append]
      exact .stored demand hfront
  | @observed mayReorder commit later demand fresh front =>
      obtain ⟨-, heffect⟩ := GoldenEntry.of_normalized_eq hrecord
      have hw : golden.registerWrite? = some commit := GoldenEntry.registerWrite?_of_ofWrite heffect
      have hsame := bringForward_extend hle hw front further.commits
      have hfront : promoted larger (expectedWrite? mayReorder golden)
          (p.extend further).commits.pending = commit :: (later ++ further.commits) := by
        have hpending := congrArg (·.2.pending) hsame
        simp only [bringForward_snd, Feed.withPending, Feed.extend, front] at hpending
        exact hpending
      have hserves : Serves { settings with reorderWindow := larger } golden fetch
          (p.extend further) _ _ _ := .observed demand fresh hfront
      have hmoved : (bringForward larger (expectedWrite? mayReorder golden)
          (p.extend further).commits).1 =
            (bringForward settings.reorderWindow (expectedWrite? mayReorder golden) p.commits).1 := by
        show (bringForward larger _ (p.commits.extend further.commits)).1 = _
        rw [hsame]
      rw [hmoved] at hserves
      exact hserves

/-- **The two runs go in lockstep**, one of which can look further. -/
theorem Run.extend (hle : settings.reorderWindow ≤ larger) {index : Nat}
    {golden : List GoldenEntry} {p : Progress} {r : Reconciliation}
    (h : Run settings index golden p r) (ho : r.outcome = .complete)
    (hknown : r.stats.unknownInstructions = 0)
    (hsame : compareFrom settings index golden (retiredEntries r.entries) = [])
    (further : DeviceTrace) :
    Run { settings with reorderWindow := larger } index golden (p.extend further) r := by
  induction h with
  | finished => exact .finished
  | stopped stops => cases ho
  | @served index golden rest p q skipped later fetch entry stats r aligns serves run ih =>
      obtain ⟨hnow, hlater⟩ := Nat.add_eq_zero_iff.1
        (show stats.unknownInstructions + r.stats.unknownInstructions = 0 from hknown)
      obtain ⟨hrecord, hsame⟩ := (compareFrom_skipped_eq_nil_iff (serves.retires hnow)).1 hsame
      exact .served (p := p.extend further) (aligns.extend further.fetches)
        (serves.extend hle hrecord further) (ih ho hlater hsame)

theorem Run.enlarge (hle : settings.reorderWindow ≤ larger) {index : Nat}
    {golden : List GoldenEntry} {p : Progress} {r : Reconciliation}
    (h : Run settings index golden p r) (ho : r.outcome = .complete)
    (hknown : r.stats.unknownInstructions = 0)
    (hsame : compareFrom settings index golden (retiredEntries r.entries) = []) :
    Run { settings with reorderWindow := larger } index golden p r := by
  have hrun := h.extend hle ho hknown hsame {}
  rw [Progress.extend_empty] at hrun
  exact hrun

end Reconciliation

/-- A comparison does not look at the window. -/
theorem compareFrom_reorderWindow (settings : Settings) (larger : Nat) (index : Nat)
    (golden : List GoldenEntry) (retired : List ReconciledEntry) :
    compareFrom { settings with reorderWindow := larger } index golden retired =
      compareFrom settings index golden retired := by
  induction golden generalizing index retired with
  | nil => rfl
  | cons entry rest ih =>
      cases retired with
      | nil => rfl
      | cons device retired =>
          rw [compareFrom_cons_cons, compareFrom_cons_cons, ih]
          rfl

/-- **A larger window never breaks a pass.** If the verification finds nothing wrong, then with any
larger window it reconciles the trace in exactly the same way, and again finds nothing wrong. -/
theorem verify_of_larger_window (golden : List GoldenEntry) (trace : DeviceTrace)
    (settings : Settings) {larger : Nat} (hle : settings.reorderWindow ≤ larger)
    (h : (verify golden trace settings).mismatches = []) :
    let v := verify golden trace { settings with reorderWindow := larger }
    v.reconciliation = (verify golden trace settings).reconciliation ∧ v.mismatches = [] := by
  intro v
  obtain ⟨hcomplete, hknown, -⟩ := complete_of_mismatches_eq_nil h
  have hrun := (run_reconcile golden trace settings).enlarge hle hcomplete hknown h
  have hsame : v.reconciliation = reconcile golden trace settings := reconcile_eq_of_run hrun
  refine ⟨hsame, ?_⟩
  show compareFrom _ 0 golden (retiredEntries v.reconciliation.entries) = []
  rw [hsame, compareFrom_reorderWindow]
  exact h

/-- The last write retired first. A window of four also holds a later commit that is equal to the first
write. -/
theorem verify_of_larger_window_four :
    let golden : List GoldenEntry := [
      { pc := 0x100, instr := 0x00500593, targetReg := some 11, regVal := some 5 },
      { pc := 0x104, instr := 0x00900593, targetReg := some 11, regVal := some 9 },
      { pc := 0x108, instr := 0x00500593, targetReg := some 11, regVal := some 5 },
      { pc := 0x10c, instr := 0x00700613, targetReg := some 12, regVal := some 7 }]
    let trace : DeviceTrace := {
      fetches := golden.map (·.toFetch)
      commits := [⟨12, 7⟩, ⟨11, 5⟩, ⟨11, 9⟩, ⟨11, 5⟩] }
    let settings : Settings := { reorderWindow := 2 }
    let v := verify golden trace { settings with reorderWindow := 4 }
    settings.reorderWindow ≤ 4 ∧ (verify golden trace settings).mismatches = [] ∧
      v.reconciliation = (verify golden trace settings).reconciliation ∧ v.mismatches = [] := by
  intro golden trace settings v
  have hle : settings.reorderWindow ≤ 4 := by decide
  have h : (verify golden trace settings).mismatches = [] := by decide
  exact ⟨hle, h, verify_of_larger_window golden trace settings hle h⟩

/-- **A pass does not hang on where the recording ended.** If the verification finds nothing wrong, then
whatever is recorded behind the three streams, it reconciles the trace in exactly the same way, and again
finds nothing wrong. -/
theorem verify_of_longer_recording (golden : List GoldenEntry) (trace : DeviceTrace)
    (settings : Settings) (h : (verify golden trace settings).mismatches = [])
    (further : DeviceTrace) :
    verify golden (trace ++ further) settings = verify golden trace settings := by
  obtain ⟨hcomplete, hknown, -⟩ := complete_of_mismatches_eq_nil h
  have hrun : Reconciliation.Run settings 0 golden (.start settings (trace ++ further))
      (reconcile golden trace settings) :=
    (run_reconcile golden trace settings).extend (Nat.le_refl _) hcomplete hknown h further
  have hsame : reconcile golden (trace ++ further) settings = reconcile golden trace settings :=
    reconcile_eq_of_run hrun
  unfold verify
  rw [hsame]

/-- The recording ends with a commit that retired late, and the last golden write repeats. Behind it come
two more commits, the first of which is equal to the repeated write and the second one to the late one. -/
theorem verify_of_longer_recording_three :
    let golden : List GoldenEntry := [
      { pc := 0x100, instr := 0x00500593, targetReg := some 11, regVal := some 5 },
      { pc := 0x104, instr := 0x00700613, targetReg := some 12, regVal := some 7 },
      { pc := 0x108, instr := 0x00500593, targetReg := some 11, regVal := some 5 }]
    let trace : DeviceTrace := {
      fetches := golden.map (·.toFetch)
      commits := [⟨12, 7⟩, ⟨11, 5⟩] }
    let further : DeviceTrace := {
      fetches := [⟨0x10c, 0x00500593⟩]
      commits := [⟨11, 5⟩, ⟨12, 7⟩]
      accesses := [⟨0x80, 0⟩] }
    (verify golden trace {}).mismatches = [] ∧
      verify golden (trace ++ further) {} = verify golden trace {} := by
  intro golden trace further
  have h : (verify golden trace {}).mismatches = [] := by decide
  exact ⟨h, verify_of_longer_recording golden trace {} h further⟩

end Lockstep
