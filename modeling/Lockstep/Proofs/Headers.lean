import Lockstep.Proofs.Files
import Lockstep.TraceFile
import Mathlib.Computability.Language

/-!
# Comment headers

A comment is white space, a number sign and what stands behind it on its line; the white space may reach over
several lines. `Stripped` says which part of a text is left once the comments at its front are taken away: it
begins with no comment, and what was taken is made of comments that end with their lines, but for one that the
text ends with. No text leaves anything else (`stripHeader_eq_iff`).

The stripping looks for one comment after another. Each turn takes a number sign away, so there are no more turns
than the text has number signs (`stripWithin_of_count_le`).
-/

namespace Lockstep.TraceFile

open scoped Computability

variable {blank line more cs rest block header : List Char}

/-! ## Lines -/

theorem afterLine_append (h : '\n' ∉ line) (cs : List Char) : afterLine (line ++ cs) = afterLine cs := by
  have hline : ∀ c ∈ line, (c != '\n') = true := fun c hc => bne_iff_ne.2 fun heq => h (heq ▸ hc)
  rw [afterLine, List.dropWhile_append_of_pos hline, afterLine]

theorem afterLine_line (h : '\n' ∉ line) (cs : List Char) : afterLine (line ++ '\n' :: cs) = cs :=
  afterLine_append h _

/-- Behind a line that does not end there is nothing. -/
theorem afterLine_end (h : '\n' ∉ line) : afterLine line = [] := by
  rw [← List.append_nil line, afterLine_append h]
  rfl

/-- A text is a line and what stands behind it, or it is a line that does not end. -/
theorem eq_append_afterLine (cs : List Char) :
    (∃ line, '\n' ∉ line ∧ line ++ '\n' :: afterLine cs = cs) ∨ '\n' ∉ cs := by
  by_cases hmem : '\n' ∈ cs
  · obtain ⟨line, later, rfl, hline⟩ := List.eq_append_cons_of_mem hmem
    exact .inl ⟨line, hline, by rw [afterLine_line hline]⟩
  · exact .inr hmem

/-! ## Comments -/

/-- White space, a number sign and the rest of its line, without the line end. -/
def comment : Language Char :=
  {cs | ∃ blank line, (∀ c ∈ blank, isBlank c = true) ∧ '\n' ∉ line ∧ blank ++ '#' :: line = cs}

/-- A comment with its line end. -/
def commentLine : Language Char := comment * {['\n']}

theorem mem_commentLine (hblank : ∀ c ∈ blank, isBlank c = true) (hline : '\n' ∉ line) :
    blank ++ '#' :: line ++ ['\n'] ∈ commentLine :=
  ⟨_, ⟨blank, line, hblank, hline, rfl⟩, ['\n'], rfl, rfl⟩

theorem trimStart_of_blank (h : ∀ c ∈ blank, isBlank c = true) (more : List Char) :
    trimStart (blank ++ '#' :: more) = '#' :: more :=
  (trimStart_append_of_blank h _).trans (List.dropWhile_cons_of_neg (by decide))

theorem exists_blank_of_trimStart (h : trimStart cs = more) :
    ∃ blank, (∀ c ∈ blank, isBlank c = true) ∧ blank ++ more = cs := by
  subst h
  exact ⟨cs.takeWhile isBlank, List.all_eq_true.1 List.all_takeWhile, List.takeWhile_append_dropWhile⟩

/-- A comment line in front of a text does not matter. -/
theorem stripHeader_commentLine (h : block ∈ commentLine) (cs : List Char) :
    stripHeader (block ++ cs) = stripHeader cs := by
  obtain ⟨_, ⟨blank, line, hblank, hline, rfl⟩, _, rfl, rfl⟩ := Language.mem_mul.1 h
  have htrim : trimStart (blank ++ '#' :: line ++ ['\n'] ++ cs) = '#' :: (line ++ '\n' :: cs) := by
    simpa using trimStart_of_blank hblank (line ++ '\n' :: cs)
  rw [stripHeader_of_comment htrim, afterLine_line hline]

theorem stripHeader_append (h : header ∈ commentLine∗) (cs : List Char) :
    stripHeader (header ++ cs) = stripHeader cs := by
  obtain ⟨blocks, rfl, hblocks⟩ := Language.mem_kstar.1 h
  clear h
  induction blocks with
  | nil => rfl
  | cons block blocks ih =>
    obtain ⟨hblock, hblocks⟩ := List.forall_mem_cons.1 hblocks
    rw [List.flatten_cons, List.append_assoc, stripHeader_commentLine hblock, ih hblocks]

/-- Of a comment that the text ends with nothing is left. -/
theorem stripHeader_of_mem_comment (h : cs ∈ comment) : stripHeader cs = [] := by
  obtain ⟨blank, line, hblank, hline, rfl⟩ := h
  rw [stripHeader_of_comment (trimStart_of_blank hblank line), afterLine_end hline]
  exact List.suffix_nil.1 (stripHeader_suffix [])

/-! ## What is left -/

/-- This is what is left of a text without the comments at its front. -/
structure Stripped (cs rest : List Char) : Prop where
  /-- It does not begin with a comment. -/
  bare : (trimStart rest).head? ≠ some '#'
  /-- What was taken away are comments. Where the last one has no line end, the text ends with it. -/
  taken : (∃ header ∈ commentLine∗, header ++ rest = cs) ∨ (rest = [] ∧ cs ∈ commentLine∗ * comment)

theorem stripped_of_bare (h : (trimStart cs).head? ≠ some '#') : Stripped cs cs :=
  ⟨h, .inl ⟨[], Language.nil_mem_kstar _, rfl⟩⟩

theorem stripped_of_mem_comment (h : cs ∈ comment) : Stripped cs [] :=
  ⟨nofun, .inr ⟨rfl, [], Language.nil_mem_kstar _, cs, h, rfl⟩⟩

theorem append_mem_kstar (hblock : block ∈ commentLine) (hheader : header ∈ commentLine∗) :
    block ++ header ∈ commentLine∗ := by
  obtain ⟨blocks, rfl, hblocks⟩ := Language.mem_kstar.1 hheader
  exact Language.mem_kstar.2 ⟨block :: blocks, rfl, List.forall_mem_cons.2 ⟨hblock, hblocks⟩⟩

/-- One more comment in front. -/
theorem Stripped.commentLine_append (h : Stripped cs rest) (hblock : block ∈ commentLine) :
    Stripped (block ++ cs) rest := by
  refine ⟨h.bare, ?_⟩
  rcases h.taken with ⟨header, hheader, rfl⟩ | ⟨hrest, header, hheader, last, hlast, rfl⟩
  · exact .inl ⟨block ++ header, append_mem_kstar hblock hheader, List.append_assoc ..⟩
  · exact .inr ⟨hrest, block ++ header, append_mem_kstar hblock hheader, last, hlast,
      List.append_assoc ..⟩

theorem head?_trimStart_iff : (trimStart cs).head? ≠ some '#' ↔ ∀ rest, trimStart cs ≠ '#' :: rest := by
  rw [ne_eq, List.head?_eq_some_iff, not_exists]

theorem stripped_stripHeader (cs : List Char) : Stripped cs (stripHeader cs) := by
  fun_induction stripHeader cs with
  | case1 cs rest hcomment ih =>
    obtain ⟨blank, hblank, rfl⟩ := exists_blank_of_trimStart hcomment
    rcases eq_append_afterLine rest with ⟨line, hline, hrest⟩ | hend
    · have hblock := ih.commentLine_append (mem_commentLine hblank hline)
      simpa [hrest] using hblock
    · -- The line does not end, so nothing stands behind it.
      have hmem : blank ++ '#' :: rest ∈ comment := ⟨blank, rest, hblank, hend, rfl⟩
      rw [← stripHeader_of_comment hcomment, stripHeader_of_mem_comment hmem]
      exact stripped_of_mem_comment hmem
  | case2 cs hbare => exact stripped_of_bare (head?_trimStart_iff.2 hbare)

/-- What is left is determined by the text. -/
theorem stripHeader_eq_iff : stripHeader cs = rest ↔ Stripped cs rest := by
  constructor
  · rintro rfl
    exact stripped_stripHeader cs
  · intro h
    rcases h.taken with ⟨header, hheader, rfl⟩ | ⟨rfl, header, hheader, last, hlast, rfl⟩
    · rw [stripHeader_append hheader, stripHeader_of_bare (head?_trimStart_iff.1 h.bare)]
    · exact (stripHeader_append hheader last).trans (stripHeader_of_mem_comment hlast)

/-! ## Turns -/

/-- Take away comments one after another, so many of them at most; `none` if there is one left. -/
def stripWithin (turns : Nat) (cs : List Char) : Option (List Char) :=
  match trimStart cs with
  | '#' :: rest =>
    match turns with
    | 0 => none
    | turns + 1 => stripWithin turns (afterLine rest)
  | _ => some cs

/-- With each comment a number sign is taken away. -/
theorem count_afterLine_lt (h : trimStart cs = '#' :: rest) :
    (afterLine rest).count '#' < cs.count '#' := by
  have hblank : '#' :: rest <:+ cs := h ▸ List.dropWhile_suffix _
  have hline := (afterLine_suffix rest).sublist.count_le '#'
  have hcount := hblank.sublist.count_le '#'
  rw [List.count_cons_self] at hcount
  omega

theorem stripWithin_of_count_le {turns : Nat} (h : cs.count '#' ≤ turns) :
    stripWithin turns cs = some (stripHeader cs) := by
  fun_induction stripHeader cs generalizing turns with
  | case1 cs rest hcomment ih =>
    have hlt := count_afterLine_lt hcomment
    cases turns with
    | zero => omega
    | succ turns =>
      rw [stripWithin, hcomment]
      exact ih (by omega)
  | case2 cs hbare =>
    unfold stripWithin
    split
    · next rest hcomment => exact absurd hcomment (hbare rest)
    · rfl

/-! ## Files -/

theorem read_of_header {α : Type} {header text path : String} {files bare : FileTree}
    (hheader : header.toList ∈ commentLine∗) (hfile : files.readText path = .ok (header ++ text))
    (hbare : bare.readText path = .ok text) (reader : Json.Reader α) :
    read reader path files = read reader path bare := by
  have hparse : parse reader (header ++ text) = parse reader text := by
    rw [parse, parse, String.toList_append, stripHeader_append hheader]
  unfold read
  rw [hfile, hbare]
  exact congrArg (Except.mapError (Error.malformedTrace path)) hparse

/-- **Stripping takes exactly the header away.** It comes to an end within as many turns as the text has number
signs. What is left is the end of the text that begins with no comment and has only comments in front of it, and
is left again by another stripping. Lines of comment in front of a text change nothing, so a trace file is read
with them as without them. -/
theorem stripHeader_exact :
    (∀ cs turns, cs.count '#' ≤ turns → stripWithin turns cs = some (stripHeader cs)) ∧
    (∀ cs rest, stripHeader cs = rest ↔ Stripped cs rest) ∧
    (∀ cs, stripHeader (stripHeader cs) = stripHeader cs) ∧
    (∀ header ∈ commentLine∗, ∀ cs, stripHeader (header ++ cs) = stripHeader cs) ∧
    ∀ header text : String, header.toList ∈ commentLine∗ →
      ∀ path files bare, files.readText path = .ok (header ++ text) → bare.readText path = .ok text →
        readGolden path files = readGolden path bare ∧ readDevice path files = readDevice path bare := by
  refine ⟨fun cs turns => stripWithin_of_count_le, fun cs rest => stripHeader_eq_iff, fun cs => ?_,
    fun header => stripHeader_append, fun header text hheader path files bare hfile hbare => ?_⟩
  · exact stripHeader_of_bare (not_comment_stripHeader cs)
  · exact ⟨read_of_header hheader hfile hbare _, read_of_header hheader hfile hbare _⟩

/-- Two comments, and a line of white space between them. -/
def twoComments : String := "# Trace for add.elf\n \n\t# on core\n"

/-- A golden trace of one entry, written as an array of its fields. -/
def oneEntry : String := " [[0, 19, null, null, null, null]]"

/-- A directory that holds one file. -/
def directoryOf (text : String) : FileTree := FileTree.empty.insert ["t"] (.file text.toUTF8)

theorem stripHeader_exact_of_twoComments :
    twoComments.toList ∈ commentLine∗ ∧
      stripHeader (twoComments ++ oneEntry).toList = oneEntry.toList ∧
      stripHeader (twoComments ++ "# no end").toList = [] ∧
      readGolden "t" (directoryOf (twoComments ++ oneEntry)) = .ok [{ pc := 0, instr := 19 }] ∧
      readDevice "t" (directoryOf (twoComments ++ oneEntry)) = readDevice "t" (directoryOf oneEntry) := by
  obtain ⟨hturns, hstripped, -, happend, hread⟩ := stripHeader_exact
  have hfirst : "# Trace for add.elf\n".toList ∈ commentLine :=
    @mem_commentLine [] " Trace for add.elf".toList nofun (by decide +kernel)
  have hsecond : " \n\t# on core\n".toList ∈ commentLine :=
    @mem_commentLine [' ', '\n', '\t'] " on core".toList (List.all_eq_true.1 rfl) (by decide +kernel)
  have htwo : twoComments.toList ∈ commentLine∗ :=
    Language.mem_kstar.2 ⟨["# Trace for add.elf\n".toList, " \n\t# on core\n".toList], by decide +kernel,
      List.forall_mem_cons.2 ⟨hfirst, List.forall_mem_singleton.2 hsecond⟩⟩
  have hlast : "# no end".toList ∈ comment :=
    ⟨[], " no end".toList, nofun, by decide +kernel, by decide +kernel⟩
  have hfile : (directoryOf (twoComments ++ oneEntry)).readText "t" = .ok (twoComments ++ oneEntry) :=
    FileTree.readText_of_read (by decide +kernel)
  have hbare : (directoryOf oneEntry).readText "t" = .ok oneEntry :=
    FileTree.readText_of_read (by decide +kernel)
  obtain ⟨hgolden, hdevice⟩ := hread twoComments oneEntry htwo "t" _ _ hfile hbare
  refine ⟨htwo, ?_, ?_, ?_, hdevice⟩
  · have hleft : stripWithin 2 (twoComments ++ oneEntry).toList = some oneEntry.toList := by decide +kernel
    exact Option.some.inj ((hturns _ 2 (by decide +kernel)).symm.trans hleft)
  · rw [String.toList_append, happend _ htwo]
    exact (hstripped _ _).2 (stripped_of_mem_comment hlast)
  · rw [hgolden]
    decide +kernel

end Lockstep.TraceFile
