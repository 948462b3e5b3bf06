import Mathlib.Data.List.Basic
import Lockstep.Pairing

/-!
# Names at the end of paths

Which file a path means is decided by its last step, so two paths are told apart by how they end. A text
without a slash that is joined to a directory is the last step of the path (`lastStep?_join`); a text that
stands at the end of a path stands at the end of its last step (`exists_lastStep?_of_suffix`). The suffixes
of the kinds of trace file are no suffixes of each other, so no name has two of them.
-/

namespace Lockstep

/-! ## Texts -/

theorem endsWith_iff (text ending : String) :
    text.endsWith ending = true ↔ ending.toList <:+ text.toList := by
  rw [String.endsWith_eq_endsWith_toSlice, String.Slice.endsWith_string_iff, String.copy_toSlice]

theorem suffix_append (text ending : String) : ending.toList <:+ (text ++ ending).toList := by
  rw [String.toList_append]
  exact List.suffix_append ..

/-- What is behind the last slash of a text, and what is in front of it. -/
theorem eq_or_eq_append_slash (cs : List Char) :
    ∃ behind, '/' ∉ behind ∧ (cs = behind ∨ ∃ front, cs = front ++ '/' :: behind) := by
  induction cs with
  | nil => exact ⟨[], List.not_mem_nil, .inl rfl⟩
  | cons c cs ih =>
    obtain ⟨behind, slashless, rfl | ⟨front, rfl⟩⟩ := ih
    · by_cases slash : c = '/'
      · exact ⟨cs, slashless, .inr ⟨[], by rw [slash, List.nil_append]⟩⟩
      · exact ⟨c :: cs, List.not_mem_cons_of_ne_of_not_mem (Ne.symm slash) slashless, .inl rfl⟩
    · exact ⟨behind, slashless, .inr ⟨c :: front, rfl⟩⟩

namespace Path

/-! ## Steps -/

theorem split_cons (c : Char) (cs : List Char) :
    split (c :: cs) = if c = '/' then [] :: split cs else (split cs).modifyHead (c :: ·) := by
  by_cases slash : c = '/'
  · simp only [split, List.foldr_cons, if_pos slash]
  · simp only [split, List.foldr_cons, if_neg slash, List.modifyHead_cons]

theorem split_eq_splitOn (cs : List Char) : split cs = cs.splitOn '/' := by
  induction cs with
  | nil => rfl
  | cons c cs ih =>
    rw [split_cons, ih, List.splitOn_cons_eq_if_modifyHead]
    simp only [beq_iff_eq]

/-- The last step of a path. -/
def lastStep? (path : String) : Option String := (steps path).getLast?

theorem steps_of_slash {path : String} {front behind : List Char}
    (h : path.toList = front ++ '/' :: behind) :
    steps path = steps (String.ofList front) ++ steps (String.ofList behind) := by
  simp [steps, h, split_eq_splitOn, List.splitOn_append_cons_self]

theorem steps_of_slashless {name : String} (slashless : '/' ∉ name.toList) (hne : name ≠ "") :
    steps name = [name] := by
  simp [steps, split_eq_splitOn, List.splitOn_eq_singleton slashless, hne]

theorem steps_append_slash {path : String} {front behind : List Char}
    (h : path.toList = front ++ '/' :: behind) (slashless : '/' ∉ behind) (hne : behind ≠ []) :
    steps path = steps (String.ofList front) ++ [String.ofList behind] := by
  have hbehind : '/' ∉ (String.ofList behind).toList := by simpa using slashless
  rw [steps_of_slash h, steps_of_slashless hbehind (by simpa using hne)]

theorem lastStep?_append_slash {path : String} {front behind : List Char}
    (h : path.toList = front ++ '/' :: behind) (slashless : '/' ∉ behind) (hne : behind ≠ []) :
    lastStep? path = some (String.ofList behind) := by
  rw [lastStep?, steps_append_slash h slashless hne, List.getLast?_concat]

theorem lastStep?_of_slashless {name : String} (slashless : '/' ∉ name.toList) (hne : name ≠ "") :
    lastStep? name = some name := by
  rw [lastStep?, steps_of_slashless slashless hne]
  rfl

theorem exists_lastStep?_of_suffix {path : String} {ending : List Char}
    (h : ending <:+ path.toList) (slashless : '/' ∉ ending) (hne : ending ≠ []) :
    ∃ name, lastStep? path = some name ∧ ending <:+ name.toList := by
  obtain ⟨front, hpath⟩ := h
  obtain ⟨behind, hbehind, rfl | ⟨upper, rfl⟩⟩ := eq_or_eq_append_slash front
  · have hslashless : '/' ∉ path.toList := by
      rw [← hpath, List.mem_append]
      exact not_or.2 ⟨hbehind, slashless⟩
    have hname : path ≠ "" := by
      rintro rfl
      exact hne (List.append_eq_nil_iff.1 hpath).2
    exact ⟨path, lastStep?_of_slashless hslashless hname, hpath ▸ List.suffix_append ..⟩
  · rw [List.append_assoc, List.cons_append] at hpath
    have hslashless : '/' ∉ behind ++ ending := by
      rw [List.mem_append]
      exact not_or.2 ⟨hbehind, slashless⟩
    refine ⟨String.ofList (behind ++ ending), lastStep?_append_slash hpath.symm hslashless ?_, ?_⟩
    · exact List.append_ne_nil_of_right_ne_nil _ hne
    · rw [String.toList_ofList]
      exact List.suffix_append ..

/-! ## Paths below a directory -/

theorem isAbsolute_iff (path : String) :
    isAbsolute path = true ↔ ['/'] <+: path.toList := by
  rw [isAbsolute, String.startsWith_string_iff]
  rfl

theorem isAbsolute_eq_false {name : String} (slashless : '/' ∉ name.toList) :
    isAbsolute name = false := by
  rw [Bool.eq_false_iff, ne_eq, isAbsolute_iff]
  exact fun h => slashless (h.subset List.mem_cons_self)

theorem suffix_join (directory path : String) : path.toList <:+ (join directory path).toList := by
  unfold join
  split
  · exact List.suffix_rfl
  · split
    · exact suffix_append ..
    · exact suffix_append ..

theorem join_eq_or {name : String} (directory : String) (slashless : '/' ∉ name.toList) :
    join directory name = name ∨
      ∃ front, (join directory name).toList = front ++ '/' :: name.toList := by
  unfold join
  rw [isAbsolute_eq_false slashless, Bool.false_or]
  split
  · exact .inl rfl
  · refine .inr ?_
    split
    case isTrue slash =>
      obtain ⟨front, hfront⟩ := (endsWith_iff ..).1 slash
      refine ⟨front, ?_⟩
      rw [String.toList_append, ← hfront, List.append_assoc]
      rfl
    case isFalse => exact ⟨directory.toList, by simp⟩

theorem lastStep?_join {name : String} (directory : String) (slashless : '/' ∉ name.toList)
    (hne : name ≠ "") : lastStep? (join directory name) = some name := by
  rcases join_eq_or directory slashless with hjoin | ⟨front, hjoin⟩
  · rw [hjoin, lastStep?_of_slashless slashless hne]
  · rw [lastStep?_append_slash hjoin slashless (by simpa using hne), String.ofList_toList]

theorem steps_join {name : String} (directory : String) (slashless : '/' ∉ name.toList)
    (hne : name ≠ "") : steps (join directory name) = steps directory ++ [name] := by
  have hname : name.toList ≠ [] := by simpa using hne
  unfold join
  rw [isAbsolute_eq_false slashless, Bool.false_or]
  split
  case isTrue hempty =>
    obtain rfl : directory = "" := by simpa using hempty
    exact steps_of_slashless slashless hne
  case isFalse =>
    split
    case isTrue slash =>
      -- The slash is already there, and what is behind it in the directory's own path is no step.
      obtain ⟨front, hfront⟩ := (endsWith_iff ..).1 slash
      have hjoin : (directory ++ name).toList = front ++ '/' :: name.toList := by
        rw [String.toList_append, ← hfront, List.append_assoc]
        rfl
      have hdirectory : steps directory = steps (String.ofList front) := by
        rw [steps_of_slash hfront.symm]
        exact List.append_nil _
      rw [steps_append_slash hjoin slashless hname, hdirectory, String.ofList_toList]
    case isFalse =>
      have hjoin : (directory ++ "/" ++ name).toList = directory.toList ++ '/' :: name.toList := by
        simp
      rw [steps_append_slash hjoin slashless hname, String.ofList_toList, String.ofList_toList]

theorem isAbsolute_join {name : String} (directory : String) (slashless : '/' ∉ name.toList) :
    isAbsolute (join directory name) = isAbsolute directory := by
  unfold join
  rw [isAbsolute_eq_false slashless, Bool.false_or]
  have hfront (behind : String) (hne : ¬ directory.isEmpty = true) :
      isAbsolute (directory ++ behind) = isAbsolute directory := by
    have hcons : directory.toList ≠ [] := by simpa using hne
    obtain ⟨c, cs, hcs⟩ := List.exists_cons_of_ne_nil hcons
    rw [Bool.eq_iff_iff, isAbsolute_iff, isAbsolute_iff, String.toList_append, hcs]
    simp
  split
  case isTrue hempty =>
    obtain rfl : directory = "" := by simpa using hempty
    rw [isAbsolute_eq_false slashless]
    rfl
  case isFalse hne =>
    split
    · exact hfront name hne
    · rw [String.append_assoc]
      exact hfront _ hne

/-! ## Base names -/

theorem fileName?_of_lastStep? {path name : String} (h : lastStep? path = some name)
    (dot : name ≠ ".") (dots : name ≠ "..") : fileName? path = some name := by
  obtain ⟨front, hsteps⟩ := List.getLast?_eq_some_iff.1 h
  have hlast : ((steps path).filter (· != ".")).getLast? = some name := by
    rw [hsteps, List.filter_append, List.filter_cons_of_pos (by simpa using dot), List.filter_nil,
      List.getLast?_concat]
  unfold fileName?
  rw [hlast]
  split
  · next he => exact absurd (Option.some.inj he) dots
  · rfl

theorem slash_not_mem_split {cs part : List Char} (h : part ∈ split cs) : '/' ∉ part := by
  induction cs generalizing part with
  | nil =>
    rw [List.mem_singleton.1 h]
    exact List.not_mem_nil
  | cons c cs ih =>
    rw [split_cons] at h
    split at h
    case isTrue =>
      rcases List.mem_cons.1 h with rfl | h
      · exact List.not_mem_nil
      · exact ih h
    case isFalse slash =>
      cases hsplit : split cs with
      | nil => exact absurd hsplit (List.cons_ne_nil _ _)
      | cons first rest =>
        rw [hsplit] at h ih
        rcases List.mem_cons.1 h with rfl | h
        · exact List.not_mem_cons_of_ne_of_not_mem (Ne.symm slash) (ih List.mem_cons_self)
        · exact ih (List.mem_cons_of_mem _ h)

theorem slash_not_mem_steps {path step : String} (h : step ∈ steps path) : '/' ∉ step.toList := by
  obtain ⟨part, hpart, rfl⟩ := List.mem_map.1 h
  rw [String.toList_ofList]
  exact slash_not_mem_split (List.mem_filter.1 hpart).1

theorem mem_steps_of_fileName? {path name : String} (h : fileName? path = some name) :
    name ∈ steps path := by
  have hlast : ((steps path).filter (· != ".")).getLast? = some name := by
    unfold fileName? at h
    split at h
    · cases h
    · exact h
  exact (List.mem_filter.1 (List.mem_of_getLast? hlast)).1

theorem slash_not_mem_baseName (path : String) : '/' ∉ (baseName path).toList := by
  unfold baseName
  split
  · next name hname =>
    rw [String.toList_ofList]
    intro hslash
    exact slash_not_mem_steps (mem_steps_of_fileName? hname) ((List.takeWhile_prefix _).subset hslash)
  · exact List.not_mem_nil

/-- A name without a dot is the base name of every file that is named after it. -/
theorem baseName_of_lastStep? {path stem ending : String}
    (h : lastStep? path = some (stem ++ ending)) (dotless : '.' ∉ stem.toList)
    (dot : ending.toList.head? = some '.') (long : 2 < ending.length) : baseName path = stem := by
  have hlength : 2 < (stem ++ ending).length := by
    rw [String.length_append]
    omega
  have hname : fileName? path = some (stem ++ ending) := by
    apply fileName?_of_lastStep? h
    · intro he
      rw [he] at hlength
      exact absurd hlength (by decide)
    · intro he
      rw [he] at hlength
      exact absurd hlength (by decide)
  obtain ⟨rest, hending⟩ := List.head?_eq_some_iff.1 dot
  have hstem : ∀ c ∈ stem.toList, (c != '.') = true := by
    intro c hc
    rw [bne_iff_ne]
    rintro rfl
    exact dotless hc
  rw [baseName, hname]
  change String.ofList ((stem ++ ending).toList.takeWhile (· != '.')) = stem
  rw [String.toList_append, hending, List.takeWhile_append_of_pos hstem,
    List.takeWhile_cons_of_neg (by decide), List.append_nil, String.ofList_toList]

end Path

/-! ## Kinds of trace file -/

namespace TraceFile

/-- What the names of the files end with that are paired or kept. -/
def suffixes : List String := [goldenSuffix, deviceSuffix, reconciledSuffix, mismatchSuffix]

/-- No name has two suffixes. -/
theorem suffix_unique {text : List Char} {ending other : String} (h : ending ∈ suffixes)
    (h' : other ∈ suffixes) (hending : ending.toList <:+ text) (hother : other.toList <:+ text) :
    ending = other := by
  have apart : ∀ a ∈ suffixes, ∀ b ∈ suffixes, a.toList <:+ b.toList → a = b := by decide
  rcases List.suffix_or_suffix_of_suffix hending hother with hsuffix | hsuffix
  · exact apart ending h other h' hsuffix
  · exact (apart other h' ending h hsuffix).symm

/-- A name with a suffix is neither of the names that a path uses for directories. -/
theorem ne_dots_of_suffix {name ending : String} (h : ending ∈ suffixes)
    (hname : ending.toList <:+ name.toList) : name ≠ "." ∧ name ≠ ".." := by
  have long : ∀ a ∈ suffixes, ¬ a.toList <:+ ".".toList ∧ ¬ a.toList <:+ "..".toList := by decide
  constructor
  · rintro rfl
    exact (long ending h).1 hname
  · rintro rfl
    exact (long ending h).2 hname

/-- A file that is called after a program is the last step of its path. -/
theorem lastStep?_join_append {program ending : String} (directory : String)
    (slashless : '/' ∉ program.toList) (h : ending ∈ suffixes) :
    Path.lastStep? (Path.join directory (program ++ ending)) = some (program ++ ending) := by
  have proper : ∀ a ∈ suffixes, '/' ∉ a.toList ∧ a.toList ≠ [] := by decide
  obtain ⟨hslash, hne⟩ := proper ending h
  apply Path.lastStep?_join directory
  · rw [String.toList_append, List.mem_append]
    exact not_or.2 ⟨slashless, hslash⟩
  · intro hempty
    have hnil := congrArg String.toList hempty
    rw [String.toList_append] at hnil
    exact hne (List.append_eq_nil_iff.1 hnil).2

end TraceFile

end Lockstep
