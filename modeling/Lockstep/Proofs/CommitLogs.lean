import Mathlib.Data.List.Forall2
import Lockstep.Proofs.CommitLines

/-!
# Logs line by line

What a line of a log says is up to its own bytes (`readLine`), and a line that tells of no commit says nothing.
Which lines these are is told by the pattern of a commit (`TellsOfCommit`). A log is the lines between its line
ends (`lines_eq_splitOn`), and it is read one after the other: the first line that cannot be read is reported
(`parse_eq_error_iff`), and if there is none, the entries are those of the lines that tell of a commit
(`parse_eq_ok_iff`).

A byte that breaks a character off is no part of it (`Utf8.decodeLossy_append_cons`), so a carriage return in front
of a line end is white space whatever stands before it.
-/

namespace Lockstep

/-! ## Bytes that stand for themselves -/

namespace Utf8

theorem le_of_following {first : UInt8} {ranges : List (UInt8 × UInt8)} (h : following first = some ranges) :
    ∀ range ∈ ranges, 0x80 ≤ range.1 := by
  have hall : ranges.all (fun range => 0x80 ≤ range.1) = true := by
    unfold following at h
    dsimp only at h
    repeat' split at h
    all_goals cases h
    all_goals decide
  exact fun range hrange => of_decide_eq_true (List.all_eq_true.1 hall range hrange)

theorem length_matching_le (ranges : List (UInt8 × UInt8)) (bytes : List UInt8) :
    (matching ranges bytes).length ≤ bytes.length := by
  fun_induction matching ranges bytes <;> simp_all

theorem matching_append_cons {ranges : List (UInt8 × UInt8)} (hranges : ∀ range ∈ ranges, 0x80 ≤ range.1)
    {b : UInt8} (hb : b < 0x80) (bytes more : List UInt8) :
    matching ranges (bytes ++ b :: more) = matching ranges bytes := by
  induction bytes generalizing ranges with
  | nil =>
    cases ranges with
    | nil => rfl
    | cons range ranges =>
      have hout : ¬ (range.1 ≤ b ∧ b ≤ range.2) := fun hin =>
        absurd (UInt8.le_trans (hranges range List.mem_cons_self) hin.1) (UInt8.not_le.2 hb)
      exact if_neg hout
  | cons a bytes ih =>
    cases ranges with
    | nil => rfl
    | cons range ranges =>
      have hrest := ih fun range hrange => hranges range (List.mem_cons_of_mem _ hrange)
      simp only [List.cons_append, matching, hrest]

/-- A byte below 128 stands for itself, whatever is in front of it. -/
theorem decodeLossy_append_cons {b : UInt8} (hb : b < 0x80) (bytes more : List UInt8) :
    decodeLossy (bytes ++ b :: more) = decodeLossy bytes ++ decodeLossy (b :: more) := by
  fun_induction decodeLossy bytes with
  | case1 => rfl
  | case2 first bytes hfirst ih =>
    have hskip (bytes : List UInt8) : decodeLossy (first :: bytes) = replacement :: decodeLossy bytes := by
      rw [decodeLossy, hfirst]
    rw [List.cons_append, hskip, ih, List.cons_append]
  | case3 first bytes ranges hfirst rest c ih =>
    have hrest := matching_append_cons (le_of_following hfirst) hb bytes more
    rw [List.cons_append, decodeLossy, hfirst]
    dsimp only
    rw [hrest, List.drop_append_of_le_length (length_matching_le ranges bytes), ih, List.cons_append]
    rfl

end Utf8

namespace CommitLog

variable {number n : Nat} {fault : LineFault} {line : List UInt8} {ls ls' : List (List UInt8)}
  {commit : Option GoldenEntry} {entries : List GoldenEntry}

/-! ## Lines -/

/-- What a line says. -/
def readLine (line : List UInt8) : Except LineFault (Option GoldenEntry) := parseLine (Utf8.decodeLossy line)

/-- The line cannot be read. -/
def Malformed (line : List UInt8) : Prop := ∃ fault, readLine line = .error fault

theorem not_malformed (h : readLine line = .ok commit) : ¬ Malformed line := by
  rintro ⟨fault, hfault⟩
  cases h.symm.trans hfault

/-- The line is no warning, and somewhere in it the pattern of a commit matches. -/
def TellsOfCommit (line : List UInt8) : Prop :=
  ¬ "warning:".toList <+: (trim (Utf8.decodeLossy line)).map Char.toLower ∧
    trim (Utf8.decodeLossy line) ∈ ⊤ * head hexDigits hexDigits * ⊤

theorem isWarning_iff {cs : List Char} : isWarning cs = true ↔ "warning:".toList <+: cs.map Char.toLower := by
  simp only [isWarning, Option.isSome_iff_exists, literal?_eq_some_iff, begins_literal]
  rfl

theorem readLine_eq_none_iff : readLine line = .ok none ↔ ¬ TellsOfCommit line := by
  unfold readLine parseLine TellsOfCommit
  rw [← isWarning_iff, not_and_or, not_not, ← findCommit?_eq_none_iff]
  dsimp only
  split
  · next hwarning => exact iff_of_true rfl (.inl hwarning)
  · next hwarning =>
    cases hfind : findCommit? (trim (Utf8.decodeLossy line)) with
    | none => exact iff_of_true rfl (.inr rfl)
    | some commit =>
      apply iff_of_false
      · cases hentry : commit.entry <;> simp [hentry]
      · rintro (h | h)
        · exact hwarning h
        · cases h

theorem tellsOfCommit_iff : TellsOfCommit line ↔ readLine line ≠ .ok none := by
  rw [ne_eq, readLine_eq_none_iff, not_not]

instance : DecidablePred TellsOfCommit := fun _ => decidable_of_iff _ tellsOfCommit_iff.symm

theorem not_mem_takeWhile (log : List UInt8) : 0x0A ∉ log.takeWhile (· != 0x0A) := fun hmem =>
  absurd (List.all_eq_true.1 List.all_takeWhile _ hmem) (by decide)

/-- The lines are what stands between the line ends. -/
theorem lines_eq_splitOn (log : List UInt8) : lines log = log.splitOn 0x0A := by
  fun_induction lines log with
  | case1 log hnone =>
    have hall : log = log.takeWhile (· != 0x0A) := by
      rw [← List.append_nil (log.takeWhile _), ← hnone, List.takeWhile_append_dropWhile]
    rw [List.splitOn_eq_singleton (hall ▸ not_mem_takeWhile log)]
  | case2 log b rest hsome ih =>
    have hb : b = 0x0A := by
      have hhead := List.head?_dropWhile_not (· != (0x0A : UInt8)) log
      rw [hsome] at hhead
      simpa using hhead
    calc log.takeWhile (· != 0x0A) :: lines rest
      _ = (log.takeWhile (· != 0x0A)).splitOn 0x0A ++ rest.splitOn 0x0A := by
        rw [List.splitOn_eq_singleton (not_mem_takeWhile log), ih, List.singleton_append]
      _ = (log.takeWhile (· != 0x0A) ++ 0x0A :: rest).splitOn 0x0A := (List.splitOn_append_cons_self ..).symm
      _ = log.splitOn 0x0A := by rw [← hb, ← hsome, hb, List.takeWhile_append_dropWhile]

/-! ## One line after the other -/

section Steps

variable (number : Nat) (ls : List (List UInt8))

theorem entriesFrom_of_error (h : readLine line = .error fault) :
    entriesFrom number (line :: ls) = .error (number, fault) := by
  rw [readLine] at h
  simp only [entriesFrom, h]

theorem entriesFrom_of_ok (h : readLine line = .ok commit) :
    entriesFrom number (line :: ls) = (commit.toList ++ ·) <$> entriesFrom (number + 1) ls := by
  rw [readLine] at h
  simp only [entriesFrom, h]

theorem entriesFrom_of_none (h : readLine line = .ok none) :
    entriesFrom number (line :: ls) = entriesFrom (number + 1) ls := by
  rw [entriesFrom_of_ok number ls h]
  cases entriesFrom (number + 1) ls <;> rfl

theorem entriesFrom_of_some {entry : GoldenEntry} (h : readLine line = .ok (some entry)) :
    entriesFrom number (line :: ls) = (entry :: ·) <$> entriesFrom (number + 1) ls :=
  entriesFrom_of_ok number ls h

end Steps

/-! ## The first fault -/

/-- With the lines counted from a number on, this is the number of the first one that cannot be read, and this is
what is wrong there. -/
def IsFirstFault (number : Nat) (ls : List (List UInt8)) (n : Nat) (fault : LineFault) : Prop :=
  ∃ before line after, ls = before ++ line :: after ∧ n = number + before.length ∧
    readLine line = .error fault ∧ ∀ earlier ∈ before, ¬ Malformed earlier

theorem isFirstFault_of_error {fault' : LineFault} (h : readLine line = .error fault') :
    IsFirstFault number (line :: ls) n fault ↔ n = number ∧ fault = fault' := by
  constructor
  · rintro ⟨before, first, after, hls, rfl, hfirst, hbefore⟩
    cases before with
    | nil =>
      cases hls
      cases h.symm.trans hfirst
      exact ⟨rfl, rfl⟩
    | cons earlier before =>
      cases hls
      exact absurd ⟨fault', h⟩ (hbefore _ List.mem_cons_self)
  · rintro ⟨rfl, rfl⟩
    exact ⟨[], line, ls, rfl, rfl, h, List.forall_mem_nil _⟩

theorem isFirstFault_of_ok (h : readLine line = .ok commit) :
    IsFirstFault number (line :: ls) n fault ↔ IsFirstFault (number + 1) ls n fault := by
  constructor
  · rintro ⟨before, first, after, hls, rfl, hfirst, hbefore⟩
    cases before with
    | nil =>
      cases hls
      exact absurd ⟨fault, hfirst⟩ (not_malformed h)
    | cons earlier before =>
      cases hls
      exact ⟨before, first, after, rfl, by simp; omega, hfirst, (List.forall_mem_cons.1 hbefore).2⟩
  · rintro ⟨before, first, after, rfl, rfl, hfirst, hbefore⟩
    exact ⟨line :: before, first, after, rfl, by simp; omega, hfirst,
      List.forall_mem_cons.2 ⟨not_malformed h, hbefore⟩⟩

theorem entriesFrom_eq_error_iff :
    entriesFrom number ls = .error (n, fault) ↔ IsFirstFault number ls n fault := by
  induction ls generalizing number with
  | nil => simp [entriesFrom, IsFirstFault]
  | cons first ls ih =>
    cases hfirst : readLine first with
    | error fault' =>
      rw [entriesFrom_of_error number ls hfirst, isFirstFault_of_error hfirst]
      simp [eq_comm]
    | ok commit =>
      rw [entriesFrom_of_ok number ls hfirst, isFirstFault_of_ok hfirst, ← ih]
      cases entriesFrom (number + 1) ls <;> simp

/-! ## Entries -/

theorem filter_cons_of_ne_none (h : readLine line ≠ .ok none) (ls : List (List UInt8)) :
    (line :: ls).filter TellsOfCommit = line :: ls.filter TellsOfCommit :=
  List.filter_cons_of_pos (decide_eq_true (tellsOfCommit_iff.2 h))

theorem filter_cons_of_none (h : readLine line = .ok none) (ls : List (List UInt8)) :
    (line :: ls).filter TellsOfCommit = ls.filter TellsOfCommit := by
  apply List.filter_cons_of_neg
  rwa [decide_eq_true_iff, ← readLine_eq_none_iff]

/-- The entries are those of the lines that tell of a commit, in their order. -/
theorem entriesFrom_eq_ok_iff : entriesFrom number ls = .ok entries ↔
    List.Forall₂ (fun line entry => readLine line = .ok (some entry)) (ls.filter TellsOfCommit) entries := by
  induction ls generalizing number entries with
  | nil => simp [entriesFrom, eq_comm]
  | cons first ls ih =>
    cases hfirst : readLine first with
    | error fault =>
      rw [entriesFrom_of_error number ls hfirst, filter_cons_of_ne_none (by simp [hfirst])]
      simp [List.forall₂_cons_left_iff, hfirst]
    | ok commit =>
      cases commit with
      | none => rw [entriesFrom_of_none number ls hfirst, filter_cons_of_none hfirst, ih]
      | some entry =>
        rw [entriesFrom_of_some number ls hfirst, filter_cons_of_ne_none (by simp [hfirst]),
          List.forall₂_cons_left_iff]
        constructor
        · intro h
          obtain ⟨rest, hrest, hentries⟩ := bind_eq_ok.1 h
          cases hentries
          exact ⟨entry, rest, hfirst, ih.1 hrest, rfl⟩
        · rintro ⟨entry', rest, hentry, hrest, rfl⟩
          cases hfirst.symm.trans hentry
          rw [ih.2 hrest]
          rfl

/-- Lines without a commit are passed over. -/
theorem entriesFrom_filter (number n : Nat) (ls : List (List UInt8)) :
    (entriesFrom number ls).mapError Prod.snd = (entriesFrom n (ls.filter TellsOfCommit)).mapError Prod.snd := by
  induction ls generalizing number n with
  | nil => rfl
  | cons first ls ih =>
    cases hfirst : readLine first with
    | error fault =>
      rw [filter_cons_of_ne_none (by simp [hfirst]), entriesFrom_of_error _ _ hfirst,
        entriesFrom_of_error _ _ hfirst]
      rfl
    | ok commit =>
      cases commit with
      | none => rw [filter_cons_of_none hfirst, entriesFrom_of_none _ _ hfirst, ih]
      | some entry =>
        have hmap (x : Except (Nat × LineFault) (List GoldenEntry)) :
            ((entry :: ·) <$> x).mapError Prod.snd = (entry :: ·) <$> x.mapError Prod.snd := by
          cases x <;> rfl
        rw [filter_cons_of_ne_none (by simp [hfirst]), entriesFrom_of_some _ _ hfirst,
          entriesFrom_of_some _ _ hfirst, hmap, hmap, ih]

/-! ## Line ends -/

theorem parseLine_append_of_blank {bs : List Char} (h : ∀ c ∈ bs, isBlank c = true) (cs : List Char) :
    parseLine (cs ++ bs) = parseLine cs := by
  rw [parseLine, parseLine, trim_append_of_blank h]

/-- A carriage return at the end of a line is white space. -/
theorem readLine_append_cr (line : List UInt8) : readLine (line ++ [0x0D]) = readLine line := by
  have hcr : Utf8.decodeLossy [0x0D] = ['\r'] := by decide +kernel
  have hblank : ∀ c ∈ ['\r'], isBlank c = true := List.all_eq_true.1 (by decide)
  rw [readLine, Utf8.decodeLossy_append_cons (by decide), hcr, parseLine_append_of_blank hblank, readLine]

theorem entriesFrom_congr (h : List.Forall₂ (fun line line' => readLine line' = readLine line) ls ls')
    (number : Nat) : entriesFrom number ls' = entriesFrom number ls := by
  induction h generalizing number with
  | nil => rfl
  | cons hline _ ih =>
    rw [readLine, readLine] at hline
    simp only [entriesFrom, hline, ih]

/-! ## Logs -/

theorem parse_eq_error_iff {log : List UInt8} :
    parse log = .error (number, fault) ↔ IsFirstFault 1 (log.splitOn 0x0A) number fault := by
  rw [parse, entriesFrom_eq_error_iff, lines_eq_splitOn]

theorem parse_eq_ok_iff {log : List UInt8} : parse log = .ok entries ↔
    List.Forall₂ (fun line entry => readLine line = .ok (some entry)) ((log.splitOn 0x0A).filter TellsOfCommit)
      entries := by
  rw [parse, entriesFrom_eq_ok_iff, lines_eq_splitOn]

theorem parse_fails_iff {log : List UInt8} :
    (∃ number fault, parse log = .error (number, fault)) ↔ ∃ line ∈ log.splitOn 0x0A, Malformed line := by
  constructor
  · rintro ⟨number, fault, h⟩
    obtain ⟨before, line, after, hlines, -, hline, -⟩ := parse_eq_error_iff.1 h
    exact ⟨line, hlines ▸ List.mem_append_right _ List.mem_cons_self, fault, hline⟩
  · rintro ⟨line, hmem, fault, hline⟩
    cases hparse : parse log with
    | error e => exact ⟨e.1, e.2, rfl⟩
    | ok entries =>
      have htells : TellsOfCommit line := by
        rw [tellsOfCommit_iff, hline]
        nofun
      have hall := (parse_eq_ok_iff.1 hparse).imp fun _ _ h => And.intro (not_malformed h) h
      have hnone := ((List.forall₂_and_left _ _).1 hall).1 line
      exact absurd ⟨fault, hline⟩ (hnone (List.mem_filter.2 ⟨hmem, by simpa using htells⟩))

theorem parse_append {first second : List UInt8} : parse (first ++ 0x0A :: second) = .ok entries ↔
    ∃ entries₁ entries₂, parse first = .ok entries₁ ∧ parse second = .ok entries₂ ∧
      entries = entries₁ ++ entries₂ := by
  simp only [parse_eq_ok_iff, List.splitOn_append_cons_self, List.filter_append]
  constructor
  · intro h
    have hfirst := List.forall₂_take ((first.splitOn 0x0A).filter TellsOfCommit).length h
    have hsecond := List.forall₂_drop ((first.splitOn 0x0A).filter TellsOfCommit).length h
    rw [List.take_left] at hfirst
    rw [List.drop_left] at hsecond
    exact ⟨_, _, hfirst, hsecond, (List.take_append_drop ..).symm⟩
  · rintro ⟨entries₁, entries₂, hfirst, hsecond, rfl⟩
    exact List.rel_append hfirst hsecond

/-- **A log is read line by line.** A line is passed over if and only if the pattern of a commit does not match
on it. Reading fails if and only if some line cannot be read, and then the first one is reported. Otherwise there
is one entry for each line that tells of a commit, in their order, and it is an entry that a log can tell of.
Other lines may stand anywhere, any line may end in a carriage return, and two logs that are joined by a line end
are read as each of them. -/
theorem parse_line_local :
    (∀ line, readLine line = .ok none ↔ ¬ TellsOfCommit line) ∧
    (∀ log, (∃ number fault, parse log = .error (number, fault)) ↔
      ∃ line ∈ log.splitOn 0x0A, Malformed line) ∧
    (∀ log number fault, parse log = .error (number, fault) ↔
      IsFirstFault 1 (log.splitOn 0x0A) number fault) ∧
    (∀ log entries, parse log = .ok entries ↔
      List.Forall₂ (fun line entry => readLine line = .ok (some entry))
        ((log.splitOn 0x0A).filter TellsOfCommit) entries) ∧
    (∀ log noisy : List UInt8,
      (noisy.splitOn 0x0A).filter TellsOfCommit = (log.splitOn 0x0A).filter TellsOfCommit →
        (parse noisy).mapError Prod.snd = (parse log).mapError Prod.snd) ∧
    (∀ log log' : List UInt8, List.Forall₂ (fun line line' => line' = line ∨ line' = line ++ [0x0D])
      (log.splitOn 0x0A) (log'.splitOn 0x0A) → parse log' = parse log) ∧
    (∀ first second entries, parse (first ++ 0x0A :: second) = .ok entries ↔
      ∃ entries₁ entries₂, parse first = .ok entries₁ ∧ parse second = .ok entries₂ ∧
        entries = entries₁ ++ entries₂) ∧
    (∀ log entries, parse log = .ok entries → ∀ entry ∈ entries, entry.Logged) ∧
    ∀ path (files : FileTree) bytes, files.read path = .ok bytes → TraceFile.readLog path files =
      (parse bytes.toList).mapError fun (number, fault) => .malformedLog path number fault := by
  refine ⟨fun _ => readLine_eq_none_iff, fun _ => parse_fails_iff, fun _ _ _ => parse_eq_error_iff,
    fun _ _ => parse_eq_ok_iff, ?_, ?_, fun _ _ _ => parse_append, fun _ _ => parse_logged, ?_⟩
  · intro log noisy h
    rw [parse, parse, lines_eq_splitOn, lines_eq_splitOn, entriesFrom_filter 1 1 (noisy.splitOn 0x0A), h,
      ← entriesFrom_filter]
  · intro log log' h
    rw [parse, parse, lines_eq_splitOn, lines_eq_splitOn]
    apply entriesFrom_congr (h.imp _)
    rintro line _ (rfl | rfl)
    · rfl
    · exact readLine_append_cr line
  · intro path files bytes h
    rw [TraceFile.readLog, h]
    rfl

/-- The bytes of a text without letters beyond ASCII. -/
def asciiBytes (text : String) : List UInt8 := text.toList.map fun c => UInt8.ofNat c.toNat

/-- The line of a commit. -/
def additionLine : List UInt8 := asciiBytes "core   0: 3 0x00000000 (0x00500593) x11 0x00000005"

/-- The line of a commit with a register that does not exist. -/
def brokenLine : List UInt8 := asciiBytes "core   0: 3 0x00000004 (0x00000013) x40 0x00000001"

/-- The entry on the line of a commit. -/
def additionEntry : GoldenEntry where
  pc := 0
  instr := 0x00500593
  targetReg := some 11
  regVal := some 5

/-- The line of a warning. -/
def warningLine : List UInt8 := asciiBytes "Warning: core 0: 3 0x0 (0x0)"

/-- A log in which a commit comes behind a warning and output that is no text. -/
def noisyLog : List UInt8 := warningLine ++ 0x0A :: 0xFF :: 0xC3 :: 0x0A :: additionLine

theorem parse_line_local_of_noisyLog :
    parse additionLine = .ok [additionEntry] ∧
    (parse noisyLog).mapError Prod.snd = (parse additionLine).mapError Prod.snd ∧
    parse (additionLine ++ [0x0D]) = parse additionLine ∧
    parse (noisyLog ++ 0x0A :: additionLine) = .ok [additionEntry, additionEntry] ∧
    parse (noisyLog ++ 0x0A :: brokenLine) = .error (4, .noSuchRegister ['4', '0']) ∧
    additionEntry.Logged ∧
    TraceFile.readLog "spike.log" (FileTree.empty.insert ["spike.log"] (.file ⟨additionLine.toArray⟩)) =
      .ok [additionEntry] := by
  obtain ⟨-, -, herror, -, hnoise, hends, hjoin, hlogged, hread⟩ := parse_line_local
  have haddition : parse additionLine = .ok [additionEntry] := by decide +kernel
  have hnoisy : parse noisyLog = .ok [additionEntry] := by decide +kernel
  refine ⟨haddition, hnoise additionLine noisyLog (by decide +kernel), hends _ _ ?_,
    (hjoin _ _ _).2 ⟨_, _, hnoisy, haddition, rfl⟩, (herror _ _ _).2 ?_,
    hlogged _ _ haddition _ List.mem_cons_self, ?_⟩
  · rw [List.splitOn_eq_singleton (by decide +kernel), List.splitOn_eq_singleton (by decide +kernel)]
    exact .cons (.inr rfl) .nil
  · refine ⟨[warningLine, [0xFF, 0xC3], additionLine], brokenLine, [], by decide +kernel, rfl,
      by decide +kernel, ?_⟩
    have hwarning : readLine warningLine = .ok none := by decide +kernel
    have houtput : readLine [0xFF, 0xC3] = .ok none := by decide +kernel
    have hcommit : readLine additionLine = .ok (some additionEntry) := by decide +kernel
    simp only [List.forall_mem_cons]
    exact ⟨not_malformed hwarning, not_malformed houtput, not_malformed hcommit, nofun⟩
  · rw [hread _ _ ⟨additionLine.toArray⟩ (by decide +kernel)]
    decide +kernel

end CommitLog

end Lockstep
