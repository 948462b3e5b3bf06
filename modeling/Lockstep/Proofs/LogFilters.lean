import Lockstep.CommitLog

/-!
# The part of a log that is kept

`LogFilter.apply` keeps the entries outside the boot code (`LogFilter.program`) and cuts them three entries
behind the place where the first clean-up sequence begins. That place is described here by what stands there
(`IsFirstCleanup`), and `cleanup?` finds it. Whether a clean-up sequence begins at a place is up to the entry at
that place and the one after it. So a cut that keeps both keeps the place, and what is kept is not cut any
further.
-/

namespace Lockstep.LogFilter

variable {entries more : List GoldenEntry} {entry : GoldenEntry} {place : Nat} {filter : LogFilter}

/-! ## Boot code -/

/-- The entry is boot code. A range that ends before it begins holds none. -/
def InRom (filter : LogFilter) (entry : GoldenEntry) : Prop :=
  ∃ range ∈ filter.debugRom, range.1 ≤ entry.pc ∧ entry.pc ≤ range.2

instance (filter : LogFilter) : DecidablePred filter.InRom := fun entry =>
  inferInstanceAs (Decidable (∃ range ∈ filter.debugRom, range.1 ≤ entry.pc ∧ entry.pc ≤ range.2))

theorem keeps_iff : filter.keeps entry = true ↔ ¬ filter.InRom entry := by
  unfold keeps InRom
  cases filter.debugRom with
  | none => simp
  | some range =>
    simp only [Option.mem_def, Option.some.injEq, exists_eq_left', Bool.not_eq_true', Bool.eq_false_iff,
      ne_eq, Bool.and_eq_true, decide_eq_true_eq]

/-- The entries that are no boot code. -/
def program (filter : LogFilter) (entries : List GoldenEntry) : List GoldenEntry :=
  entries.filter fun entry => ¬ filter.InRom entry

theorem filter_keeps (filter : LogFilter) (entries : List GoldenEntry) :
    entries.filter filter.keeps = filter.program entries := by
  apply List.filter_congr
  intro entry _
  rw [Bool.eq_iff_iff, keeps_iff, decide_eq_true_iff]

theorem program_append (filter : LogFilter) (entries more : List GoldenEntry) :
    filter.program (entries ++ more) = filter.program entries ++ filter.program more :=
  List.filter_append ..

/-- No boot code is left. -/
theorem program_of_subset (h : more ⊆ filter.program entries) : filter.program more = more := by
  apply List.filter_eq_self.2
  intro entry hentry
  exact (List.mem_filter.1 (h hentry)).2

/-! ## The clean-up sequence -/

/-- A clean-up sequence begins at a place. -/
def IsCleanup (entries : List GoldenEntry) (place : Nat) : Prop :=
  ∃ first second, entries[place]? = some first ∧ entries[place + 1]? = some second ∧
    first.instr = 0x00100093 ∧ second.instr = 0x00001397

/-- The first clean-up sequence begins at a place. -/
def IsFirstCleanup (entries : List GoldenEntry) (place : Nat) : Prop :=
  IsCleanup entries place ∧ ∀ earlier < place, ¬ IsCleanup entries earlier

theorem IsCleanup.lt (h : IsCleanup entries place) : place + 1 < entries.length := by
  obtain ⟨_, second, -, hsecond, -, -⟩ := h
  exact (List.getElem?_eq_some_iff.1 hsecond).1

theorem isCleanup_zero {a b : GoldenEntry} :
    IsCleanup (a :: b :: entries) 0 ↔ a.instr = cleanupFirst ∧ b.instr = cleanupSecond := by
  simp [IsCleanup, cleanupFirst, cleanupSecond]

theorem isCleanup_succ {a : GoldenEntry} :
    IsCleanup (a :: entries) (place + 1) ↔ IsCleanup entries place := by
  simp [IsCleanup]

/-- Whether a clean-up sequence begins somewhere is up to the two entries that stand there. -/
theorem isCleanup_congr (h : ∀ i ≤ place + 1, entries[i]? = more[i]?) :
    IsCleanup entries place ↔ IsCleanup more place := by
  unfold IsCleanup
  rw [h place (Nat.le_succ place), h (place + 1) (Nat.le_refl _)]

/-- The first clean-up sequence is still the first if nothing is changed up to its end. -/
theorem IsFirstCleanup.congr (h : ∀ i ≤ place + 1, entries[i]? = more[i]?)
    (hfirst : IsFirstCleanup entries place) : IsFirstCleanup more place := by
  refine ⟨(isCleanup_congr h).1 hfirst.1, fun earlier hearlier hcleanup => ?_⟩
  apply hfirst.2 earlier hearlier
  exact (isCleanup_congr fun i hi => h i (by omega)).2 hcleanup

theorem cleanup?_eq_none_iff : cleanup? entries = none ↔ ∀ place, ¬ IsCleanup entries place := by
  fun_induction cleanup? entries with
  | case1 a b rest h => exact iff_of_false nofun fun hnone => hnone 0 (isCleanup_zero.2 h)
  | case2 a b rest h ih =>
    rw [Option.map_eq_none_iff, ih]
    constructor
    · intro hnone place
      cases place with
      | zero => exact fun hcleanup => h (isCleanup_zero.1 hcleanup)
      | succ place => exact fun hcleanup => hnone place (isCleanup_succ.1 hcleanup)
    · exact fun hnone place hcleanup => hnone (place + 1) (isCleanup_succ.2 hcleanup)
  | case3 entries hshort =>
    refine iff_of_true rfl fun place hcleanup => ?_
    match entries, hcleanup.lt with
    | a :: b :: rest, _ => exact hshort a b rest rfl

theorem isFirstCleanup_of_cleanup? (h : cleanup? entries = some place) :
    IsFirstCleanup entries place := by
  fun_induction cleanup? entries generalizing place with
  | case1 a b rest hfirst =>
    cases h
    exact ⟨isCleanup_zero.2 hfirst, nofun⟩
  | case2 a b rest hfirst ih =>
    obtain ⟨before, hbefore, rfl⟩ := Option.map_eq_some_iff.1 h
    obtain ⟨hcleanup, hnone⟩ := ih hbefore
    refine ⟨isCleanup_succ.2 hcleanup, fun earlier hearlier => ?_⟩
    cases earlier with
    | zero => exact fun hzero => hfirst (isCleanup_zero.1 hzero)
    | succ earlier =>
      exact fun hsucc => hnone earlier (Nat.lt_of_succ_lt_succ hearlier) (isCleanup_succ.1 hsucc)
  | case3 => cases h

theorem IsFirstCleanup.unique {other : Nat} (h : IsFirstCleanup entries place)
    (h' : IsFirstCleanup entries other) : place = other := by
  rcases Nat.lt_trichotomy place other with hlt | heq | hlt
  · exact absurd h.1 (h'.2 place hlt)
  · exact heq
  · exact absurd h'.1 (h.2 other hlt)

theorem cleanup?_eq_some_iff : cleanup? entries = some place ↔ IsFirstCleanup entries place := by
  refine ⟨isFirstCleanup_of_cleanup?, fun h => ?_⟩
  cases hfound : cleanup? entries with
  | none => exact absurd h.1 (cleanup?_eq_none_iff.1 hfound place)
  | some other => rw [h.unique (isFirstCleanup_of_cleanup? hfound)]

/-! ## The cut -/

/-- Nothing is cut. -/
def KeepsAll (filter : LogFilter) (program : List GoldenEntry) : Prop :=
  filter.stopAtTestCleanup = false ∨ ∀ place, ¬ IsCleanup program place

theorem apply_of_keepsAll (h : filter.KeepsAll (filter.program entries)) :
    filter.apply entries = filter.program entries := by
  unfold apply
  rw [filter_keeps]
  rcases h with hoff | hnone
  · simp [hoff]
  · simp [cleanup?_eq_none_iff.2 hnone]

theorem apply_of_isFirstCleanup (hstop : filter.stopAtTestCleanup = true)
    (h : IsFirstCleanup (filter.program entries) place) :
    filter.apply entries = (filter.program entries).take (place + 3) := by
  unfold apply
  rw [filter_keeps]
  simp [hstop, cleanup?_eq_some_iff.2 h]

theorem keepsAll_or_isFirstCleanup (filter : LogFilter) (program : List GoldenEntry) :
    filter.KeepsAll program ∨
      filter.stopAtTestCleanup = true ∧ ∃ place, IsFirstCleanup program place := by
  cases hstop : filter.stopAtTestCleanup with
  | false => exact .inl (.inl hstop)
  | true =>
    cases hfound : cleanup? program with
    | none => exact .inl (.inr (cleanup?_eq_none_iff.1 hfound))
    | some place => exact .inr ⟨rfl, place, cleanup?_eq_some_iff.1 hfound⟩

/-- What is kept is kept again. -/
theorem apply_apply (filter : LogFilter) (entries : List GoldenEntry) :
    filter.apply (filter.apply entries) = filter.apply entries := by
  rcases keepsAll_or_isFirstCleanup filter (filter.program entries) with hall | ⟨hstop, place, hfirst⟩
  · have hprogram : filter.program (filter.program entries) = filter.program entries :=
      program_of_subset (List.Subset.refl _)
    rw [apply_of_keepsAll hall, apply_of_keepsAll (hprogram.symm ▸ hall), hprogram]
  · rw [apply_of_isFirstCleanup hstop hfirst]
    have hprogram := program_of_subset (List.take_subset (place + 3) (filter.program entries))
    -- The cut is behind the sequence, so a second pass finds it in the same place.
    have hagain : IsFirstCleanup ((filter.program entries).take (place + 3)) place :=
      hfirst.congr fun i hi => (List.getElem?_take_of_lt (by omega)).symm
    rw [apply_of_isFirstCleanup hstop (hprogram.symm ▸ hagain), hprogram, List.take_take, Nat.min_self]

/-- What stands behind the cut does not matter. -/
theorem apply_append (hstop : filter.stopAtTestCleanup = true)
    (h : IsFirstCleanup (filter.program entries) place)
    (hle : place + 3 ≤ (filter.program entries).length) (more : List GoldenEntry) :
    filter.apply (entries ++ more) = filter.apply entries := by
  have hlater : IsFirstCleanup (filter.program (entries ++ more)) place := by
    rw [program_append]
    exact h.congr fun i hi => (List.getElem?_append_left (by omega)).symm
  rw [apply_of_isFirstCleanup hstop hlater, apply_of_isFirstCleanup hstop h, program_append,
    List.take_append_of_le_length hle]

/-- **A filter keeps exactly the part of a log that belongs to the test program**: all entries but those
of the boot code, and of these no more than three from the first clean-up sequence on. What is kept is
kept again, and once all three are there, nothing that follows in the log changes it. -/
theorem apply_exact (filter : LogFilter) (entries : List GoldenEntry) :
    ((∀ range ∈ filter.debugRom, range.2 < range.1) → filter.program entries = entries) ∧
    (filter.stopAtTestCleanup = false ∨ (∀ place, ¬ IsCleanup (filter.program entries) place) →
      filter.apply entries = filter.program entries) ∧
    (filter.stopAtTestCleanup = true → ∀ place, IsFirstCleanup (filter.program entries) place →
      filter.apply entries =
        (filter.program entries).take (min (place + 3) (filter.program entries).length)) ∧
    filter.apply (filter.apply entries) = filter.apply entries ∧
    (filter.stopAtTestCleanup = true → ∀ place, IsFirstCleanup (filter.program entries) place →
      place + 3 ≤ (filter.program entries).length →
      ∀ more, filter.apply (entries ++ more) = filter.apply entries) := by
  refine ⟨?_, apply_of_keepsAll, ?_, apply_apply filter entries, ?_⟩
  · intro hreversed
    apply List.filter_eq_self.2
    rintro entry -
    rw [decide_eq_true_iff]
    rintro ⟨range, hrange, hlower, hupper⟩
    exact absurd (UInt32.lt_of_le_of_lt (UInt32.le_trans hlower hupper) (hreversed range hrange))
      (UInt32.lt_irrefl _)
  · intro hstop place hfirst
    rw [apply_of_isFirstCleanup hstop hfirst, List.take_eq_take_min]
  · exact fun hstop place hfirst hle more => apply_append hstop hfirst hle more

/-- A log in which two instructions come together once the boot code between them is dropped. -/
def cleanupLog : List GoldenEntry :=
  [{ pc := 0x00, instr := 0x00500593 }, { pc := 0x04, instr := 0x00100093 },
   { pc := 0x1000, instr := 0x00000297 }, { pc := 0x08, instr := 0x00001397 },
   { pc := 0x0c, instr := 0x0013A023 }, { pc := 0x10, instr := 0x00000013 }]

theorem apply_exact_of_cleanupLog :
    ({} : LogFilter).program cleanupLog =
        [{ pc := 0x00, instr := 0x00500593 }, { pc := 0x04, instr := 0x00100093 },
         { pc := 0x08, instr := 0x00001397 }, { pc := 0x0c, instr := 0x0013A023 },
         { pc := 0x10, instr := 0x00000013 }] ∧
      ({} : LogFilter).apply cleanupLog =
        [{ pc := 0x00, instr := 0x00500593 }, { pc := 0x04, instr := 0x00100093 },
         { pc := 0x08, instr := 0x00001397 }, { pc := 0x0c, instr := 0x0013A023 }] ∧
      ({ debugRom := none } : LogFilter).apply cleanupLog = cleanupLog ∧
      ({ debugRom := some (2, 1) } : LogFilter).program cleanupLog = cleanupLog ∧
      ∀ more, ({} : LogFilter).apply (cleanupLog ++ more) = ({} : LogFilter).apply cleanupLog := by
  have hfirst : IsFirstCleanup (({} : LogFilter).program cleanupLog) 1 :=
    cleanup?_eq_some_iff.1 (by decide)
  have hnone : ∀ place, ¬ IsCleanup (({ debugRom := none } : LogFilter).program cleanupLog) place :=
    cleanup?_eq_none_iff.1 (by decide)
  obtain ⟨-, -, hcut, -, hmore⟩ := apply_exact {} cleanupLog
  obtain ⟨-, hall, -, -, -⟩ := apply_exact { debugRom := none } cleanupLog
  obtain ⟨hreversed, -, -, -, -⟩ := apply_exact { debugRom := some (2, 1) } cleanupLog
  refine ⟨by decide, ?_, ?_, hreversed ?_, hmore rfl 1 hfirst (by decide)⟩
  · rw [hcut rfl 1 hfirst]
    decide
  · rw [hall (.inr hnone)]
    decide
  · rintro _ ⟨⟩
    decide

end Lockstep.LogFilter
