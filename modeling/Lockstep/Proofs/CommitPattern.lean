import Mathlib.Computability.Language
import Mathlib.Order.CompletePartialOrder
import Lockstep.CommitLog.Line
import Lockstep.Proofs.Numerals

/-!
# The pattern of a commit

What the readers of a commit take from the front of a text is told here as languages, one for each reader and
called as it is: `literal`, `run`, `blanks`, `hexWord`, `head`, `register`, `access`. A reader takes any word of
its language, and what it has taken is one. Only the run of a kind of character has to end where the word does
(`Outside`), and in the pattern each of them is followed by something else. So no reader has to go back, and a
line holds a commit if and only if the pattern matches somewhere in it (`findCommit?_eq_none_iff`).

The parts that a commit may lack are told apart by their first letter (`opening?`).
-/

namespace Lockstep.CommitLog

variable {p q : Char → Bool} {c : Char} {w cs rest digits : List Char} {first second : Language Char}

/-! ## What stands at the front of a text -/

/-- A text begins with a word of a language, and this is the text behind the word. -/
def Begins (language : Language Char) (cs rest : List Char) : Prop := ∃ w ∈ language, w ++ rest = cs

theorem begins_mul :
    Begins (first * second) cs rest ↔ ∃ mid, Begins first cs mid ∧ Begins second mid rest := by
  constructor
  · rintro ⟨_, ⟨v, hv, w, hw, rfl⟩, rfl⟩
    exact ⟨w ++ rest, ⟨v, hv, (List.append_assoc ..).symm⟩, w, hw, rfl⟩
  · rintro ⟨_, ⟨v, hv, rfl⟩, w, hw, rfl⟩
    exact ⟨v ++ w, ⟨v, hv, w, hw, rfl⟩, List.append_assoc ..⟩

theorem begins_add : Begins (first + second) cs rest ↔ Begins first cs rest ∨ Begins second cs rest := by
  simp only [Begins, Language.mem_add, or_and_right, exists_or]

theorem begins_one : Begins 1 cs rest ↔ rest = cs := by simp [Begins]

theorem Begins.mul {mid : List Char} (hfirst : Begins first cs mid) (hsecond : Begins second mid rest) :
    Begins (first * second) cs rest :=
  begins_mul.2 ⟨mid, hfirst, hsecond⟩

theorem begins_nil_iff : Begins first cs [] ↔ cs ∈ first := by simp [Begins]

/-- A text does not begin with a character of a kind. -/
def Outside (p : Char → Bool) (cs : List Char) : Prop := ∀ c ∈ cs.head?, p c = false

theorem outside_nil : Outside p [] := nofun

theorem outside_cons (h : p c = false) (cs : List Char) : Outside p (c :: cs) := by
  rintro _ ⟨⟩
  exact h

theorem outside_dropWhile (p : Char → Bool) (cs : List Char) : Outside p (cs.dropWhile p) := by
  intro c hc
  obtain ⟨rest, hrest⟩ := List.head?_eq_some_iff.1 hc
  have hhead := List.head?_dropWhile_not p cs
  simp_all

/-! ## Literals -/

/-- A text by itself. -/
def literal (text : List Char) : Language Char := {text}

theorem begins_literal {text : List Char} : Begins (literal text) cs rest ↔ text ++ rest = cs := by
  constructor
  · rintro ⟨_, rfl, rfl⟩
    rfl
  · rintro rfl
    exact ⟨text, rfl, rfl⟩

theorem literal?_eq_some_iff {expected : List Char} :
    literal? expected cs = some rest ↔ Begins (literal expected) cs rest := by
  rw [begins_literal]
  fun_induction literal? expected cs with
  | case1 cs => simp [eq_comm]
  | case2 expected c cs ih => simp [ih]
  | case3 e expected c cs hne => simp [hne]
  | case4 e expected => simp

theorem Begins.outside_literal {text : List Char} (h : Begins (literal (c :: text)) cs rest) (hc : p c = false) :
    Outside p cs := by
  obtain ⟨_, rfl, rfl⟩ := h
  exact outside_cons hc _

/-! ## Runs -/

/-- One or more characters of a kind. -/
def run (p : Char → Bool) : Language Char := {w | w ≠ [] ∧ ∀ c ∈ w, p c = true}

theorem mem_run (hne : w ≠ []) (hall : w.all p = true) : w ∈ run p := ⟨hne, List.all_eq_true.1 hall⟩

theorem Begins.outside_run (h : Begins (run q) cs rest) (hout : ∀ c, q c = true → p c = false) :
    Outside p cs := by
  obtain ⟨w, ⟨hne, hall⟩, rfl⟩ := h
  cases w with
  | nil => exact absurd rfl hne
  | cons c w => exact outside_cons (hout c (hall c List.mem_cons_self)) _

theorem run?_eq_some_iff :
    run? p cs = some (digits, rest) ↔ digits ∈ run p ∧ Outside p rest ∧ digits ++ rest = cs := by
  unfold run?
  constructor
  · intro h
    split at h
    · cases h
    · next hne =>
      cases h
      exact ⟨mem_run (by simpa using hne) List.all_takeWhile, outside_dropWhile p cs,
        List.takeWhile_append_dropWhile⟩
  · rintro ⟨⟨hne, hall⟩, hrest, rfl⟩
    have htake : (digits ++ rest).takeWhile p = digits := by
      rw [List.takeWhile_append_of_pos hall]
      cases rest with
      | nil => simp
      | cons c rest => simp [hrest c rfl]
    have hdrop : (digits ++ rest).dropWhile p = rest := by
      rw [List.dropWhile_append_of_pos hall]
      cases rest with
      | nil => simp
      | cons c rest => simp [hrest c rfl]
    rw [htake, hdrop, if_neg (by simpa using hne)]

theorem begins_of_run? (h : run? p cs = some (digits, rest)) : Begins (run p) cs rest := by
  obtain ⟨hdigits, -, rfl⟩ := run?_eq_some_iff.1 h
  exact ⟨digits, hdigits, rfl⟩

theorem run?_of_begins {number : Language Char} (hnumber : number ≤ run p) (h : Begins number cs rest)
    (hrest : Outside p rest) : ∃ digits ∈ number, run? p cs = some (digits, rest) := by
  obtain ⟨digits, hdigits, rfl⟩ := h
  exact ⟨digits, hdigits, run?_eq_some_iff.2 ⟨hnumber hdigits, hrest, rfl⟩⟩

/-- White space. -/
def blanks : Language Char := run isBlank

theorem blanks?_eq_some_iff : blanks? cs = some rest ↔ Begins blanks cs rest ∧ Outside isBlank rest := by
  unfold blanks?
  constructor
  · intro h
    obtain ⟨⟨w, _⟩, hrun, rfl⟩ := Option.map_eq_some_iff.1 h
    exact ⟨begins_of_run? hrun, (run?_eq_some_iff.1 hrun).2.1⟩
  · rintro ⟨hbegins, hrest⟩
    obtain ⟨w, -, hrun⟩ := run?_of_begins (le_refl _) hbegins hrest
    rw [hrun, Option.map_some]

/-! ## Kinds of characters -/

theorem isBlank_of_hexDigit (c : Char) (h : Hex.isDigit c = true) : isBlank c = false := by
  revert c
  apply forall_char
  · decide +kernel
  · intro c hc h
    have hle (d : Char) (hd : d.toNat < 128) : ¬ c ≤ d := fun hle =>
      absurd (UInt32.le_iff_toNat_le.1 hle) (Nat.not_le_of_lt (Nat.lt_of_lt_of_le hd hc))
    simp [Hex.isDigit, Hex.digit?, hle] at h

theorem isBlank_of_isDecimalDigit (c : Char) (h : isDecimalDigit c = true) : isBlank c = false := by
  have hdigits : ∀ first ∈ digitZeros, ∀ k < 10, isBlank (Char.ofNat (first + k)) = false := by
    decide +kernel
  obtain ⟨first, hfirst, hc⟩ := List.any_eq_true.1 h
  simp only [Bool.and_eq_true, decide_eq_true_eq] at hc
  have hdigit := hdigits first hfirst (c.toNat - first) (by omega)
  rwa [Nat.add_sub_cancel' hc.1, Char.ofNat_toNat] at hdigit

theorem isDecimalDigit_of_isBlank (c : Char) (h : isBlank c = true) : isDecimalDigit c = false := by
  cases hdigit : isDecimalDigit c with
  | false => rfl
  | true => rw [isBlank_of_isDecimalDigit c hdigit] at h; cases h

theorem hexDigit_of_isBlank (c : Char) (h : isBlank c = true) : Hex.isDigit c = false := by
  cases hdigit : Hex.isDigit c with
  | false => rfl
  | true => rw [isBlank_of_hexDigit c hdigit] at h; cases h

/-! ## Numbers -/

/-- Hexadecimal digits. -/
def hexDigits : Language Char := run Hex.isDigit

/-- White space, `0x` and a number. -/
def hexWord (number : Language Char) : Language Char := blanks * literal ['0', 'x'] * number

theorem Begins.outside_blanks (h : Begins (blanks * first) cs rest)
    (hout : ∀ c, isBlank c = true → p c = false) : Outside p cs := by
  obtain ⟨_, hblanks, -⟩ := begins_mul.1 h
  exact hblanks.outside_run hout

theorem Begins.outside_hexWord {number : Language Char} (h : Begins (hexWord number) cs rest)
    (hout : ∀ c, isBlank c = true → p c = false) : Outside p cs := by
  rw [hexWord, mul_assoc] at h
  exact h.outside_blanks hout

theorem hexWord?_of_begins {number : Language Char} (hnumber : number ≤ hexDigits)
    (h : Begins (hexWord number) cs rest) (hrest : Outside Hex.isDigit rest) :
    ∃ digits ∈ number, hexWord? cs = some (digits, rest) := by
  simp only [hexWord, mul_assoc, begins_mul] at h
  obtain ⟨_, hblanks, _, hliteral, hdigits⟩ := h
  obtain ⟨digits, hdigits, hrun⟩ := run?_of_begins hnumber hdigits hrest
  have hout := hliteral.outside_literal (p := isBlank) (by decide)
  refine ⟨digits, hdigits, ?_⟩
  simp [hexWord?, blanks?_eq_some_iff.2 ⟨hblanks, hout⟩, literal?_eq_some_iff.2 hliteral, hrun]

theorem begins_of_hexWord? (h : hexWord? cs = some (digits, rest)) : Begins (hexWord hexDigits) cs rest := by
  obtain ⟨_, hblanks, h⟩ := Option.bind_eq_some_iff.1 h
  obtain ⟨_, hliteral, hdigits⟩ := Option.bind_eq_some_iff.1 h
  exact ((blanks?_eq_some_iff.1 hblanks).1.mul (literal?_eq_some_iff.1 hliteral)).mul (begins_of_run? hdigits)

/-! ## Commits -/

/-- What every commit begins with. -/
def head (pc instr : Language Char) : Language Char :=
  literal ['c', 'o', 'r', 'e'] * blanks * run isDecimalDigit * literal [':'] *
    blanks * run isDecimalDigit * hexWord pc *
    blanks * literal ['(', '0', 'x'] * instr * literal [')']

theorem head?_of_begins {pcs instrs : Language Char} (hpcs : pcs ≤ hexDigits) (hinstrs : instrs ≤ hexDigits)
    (h : Begins (head pcs instrs) cs rest) :
    ∃ pc ∈ pcs, ∃ instr ∈ instrs, head? cs = some ((pc, instr), rest) := by
  simp only [head, mul_assoc, begins_mul] at h
  obtain ⟨_, hcore, _, hblanks₁, _, hhart, _, hcolon, _, hblanks₂, _, hprivilege, _, hpc, _,
    hblanks₃, _, hopen, _, hinstr, hclose⟩ := h
  have hopen' := hopen.outside_literal (p := isBlank) (by decide)
  have hpc' := hpc.outside_hexWord isDecimalDigit_of_isBlank
  -- No run can go on where the next piece begins.
  have blanks₁ := blanks?_eq_some_iff.2 ⟨hblanks₁, hhart.outside_run isBlank_of_isDecimalDigit⟩
  have blanks₂ := blanks?_eq_some_iff.2 ⟨hblanks₂, hprivilege.outside_run isBlank_of_isDecimalDigit⟩
  have blanks₃ := blanks?_eq_some_iff.2 ⟨hblanks₃, hopen'⟩
  obtain ⟨_, -, hart⟩ := run?_of_begins (le_refl _) hhart (hcolon.outside_literal (by decide))
  obtain ⟨_, -, privilege⟩ := run?_of_begins (le_refl _) hprivilege hpc'
  obtain ⟨pc, hpc, pcWord⟩ := hexWord?_of_begins hpcs hpc (hblanks₃.outside_run hexDigit_of_isBlank)
  obtain ⟨instr, hinstr, instrWord⟩ := run?_of_begins hinstrs hinstr (hclose.outside_literal (by decide))
  refine ⟨pc, hpc, instr, hinstr, ?_⟩
  simp [head?, literal?_eq_some_iff.2 hcore, blanks₁, hart, literal?_eq_some_iff.2 hcolon, blanks₂, privilege,
    pcWord, blanks₃, literal?_eq_some_iff.2 hopen, instrWord, literal?_eq_some_iff.2 hclose]

theorem begins_of_head? {result : (List Char × List Char) × List Char} (h : head? cs = some result) :
    Begins (head hexDigits hexDigits) cs result.2 := by
  unfold head? at h
  obtain ⟨_, hcore, h⟩ := Option.bind_eq_some_iff.1 h
  obtain ⟨_, hblanks₁, h⟩ := Option.bind_eq_some_iff.1 h
  obtain ⟨⟨_, _⟩, hhart, h⟩ := Option.bind_eq_some_iff.1 h
  obtain ⟨_, hcolon, h⟩ := Option.bind_eq_some_iff.1 h
  obtain ⟨_, hblanks₂, h⟩ := Option.bind_eq_some_iff.1 h
  obtain ⟨⟨_, _⟩, hprivilege, h⟩ := Option.bind_eq_some_iff.1 h
  obtain ⟨⟨_, _⟩, hpc, h⟩ := Option.bind_eq_some_iff.1 h
  obtain ⟨_, hblanks₃, h⟩ := Option.bind_eq_some_iff.1 h
  obtain ⟨_, hopen, h⟩ := Option.bind_eq_some_iff.1 h
  obtain ⟨⟨_, _⟩, hinstr, h⟩ := Option.bind_eq_some_iff.1 h
  obtain ⟨_, hclose, h⟩ := Option.bind_eq_some_iff.1 h
  cases h
  exact literal?_eq_some_iff.1 hcore
    |>.mul (blanks?_eq_some_iff.1 hblanks₁).1
    |>.mul (begins_of_run? hhart)
    |>.mul (literal?_eq_some_iff.1 hcolon)
    |>.mul (blanks?_eq_some_iff.1 hblanks₂).1
    |>.mul (begins_of_run? hprivilege)
    |>.mul (begins_of_hexWord? hpc)
    |>.mul (blanks?_eq_some_iff.1 hblanks₃).1
    |>.mul (literal?_eq_some_iff.1 hopen)
    |>.mul (begins_of_run? hinstr)
    |>.mul (literal?_eq_some_iff.1 hclose)

/-- The register write of a commit. -/
def register (number value : Language Char) : Language Char := blanks * literal ['x'] * number * hexWord value

/-- The memory access of a commit, up to its address. -/
def access (address : Language Char) : Language Char := blanks * literal ['m', 'e', 'm'] * hexWord address

theorem register?_of_begins {numbers values : Language Char} (hnumbers : numbers ≤ run isDecimalDigit)
    (hvalues : values ≤ hexDigits) (h : Begins (register numbers values) cs rest)
    (hrest : Outside Hex.isDigit rest) :
    ∃ number ∈ numbers, ∃ value ∈ values, register? cs = some ((number, value), rest) := by
  simp only [register, mul_assoc, begins_mul] at h
  obtain ⟨_, hblanks, _, hx, _, hnumber, hvalue⟩ := h
  have hout := hx.outside_literal (p := isBlank) (by decide)
  obtain ⟨number, hmem, numberRun⟩ :=
    run?_of_begins hnumbers hnumber (hvalue.outside_hexWord isDecimalDigit_of_isBlank)
  obtain ⟨value, hvalue, valueWord⟩ := hexWord?_of_begins hvalues hvalue hrest
  refine ⟨number, hmem, value, hvalue, ?_⟩
  simp [register?, blanks?_eq_some_iff.2 ⟨hblanks, hout⟩, literal?_eq_some_iff.2 hx, numberRun, valueWord]

theorem memory?_of_begins {addresses : Language Char} (haddresses : addresses ≤ hexDigits)
    (h : Begins (access addresses) cs rest) (hrest : Outside Hex.isDigit rest) :
    ∃ address ∈ addresses, memory? cs = match hexWord? rest with
      | some (value, behind) => some ((address, some value), behind)
      | none => some ((address, none), rest) := by
  simp only [access, mul_assoc, begins_mul] at h
  obtain ⟨_, hblanks, _, hmem, haddress⟩ := h
  have hout := hmem.outside_literal (p := isBlank) (by decide)
  obtain ⟨address, haddress, addressWord⟩ := hexWord?_of_begins haddresses haddress hrest
  refine ⟨address, haddress, ?_⟩
  cases hword : hexWord? rest <;>
    simp [memory?, blanks?_eq_some_iff.2 ⟨hblanks, hout⟩, literal?_eq_some_iff.2 hmem, addressWord, hword]

/-! ## Parts that a commit lacks -/

/-- The first character behind the white space at the front of a text. -/
def opening? (cs : List Char) : Option Char := (blanks? cs).bind List.head?

theorem opening?_of_begins {text : List Char} (h : Begins (blanks * (literal (c :: text) * first)) cs rest)
    (hc : isBlank c = false) : opening? cs = some c := by
  simp only [begins_mul] at h
  obtain ⟨mid, hblanks, _, hliteral, -⟩ := h
  rw [opening?, blanks?_eq_some_iff.2 ⟨hblanks, hliteral.outside_literal hc⟩, ← begins_literal.1 hliteral]
  rfl

theorem opening?_of_access {addresses : Language Char} (h : Begins (access addresses) cs rest) :
    opening? cs = some 'm' := by
  rw [access, mul_assoc] at h
  exact opening?_of_begins h (by decide)

theorem outside_of_access {addresses : Language Char} (h : Begins (access addresses) cs rest) :
    Outside Hex.isDigit cs := by
  rw [access, mul_assoc] at h
  exact h.outside_blanks hexDigit_of_isBlank

theorem literal?_eq_none {text : List Char} (h : cs.head? ≠ some c) : literal? (c :: text) cs = none := by
  cases cs with
  | nil => rfl
  | cons d cs => exact if_neg fun heq => h (congrArg some heq.symm)

theorem literal?_of_opening? (h : opening? cs ≠ some c) (text : List Char) :
    (blanks? cs).bind (literal? (c :: text)) = none := by
  rw [Option.bind_eq_none_iff]
  intro mid hmid
  apply literal?_eq_none
  rwa [opening?, hmid] at h

theorem hexWord?_eq_none (h : opening? cs ≠ some '0') : hexWord? cs = none := by
  have hnone := literal?_of_opening? h ['x']
  simp [hexWord?, ← Option.bind_assoc, hnone]

theorem register?_eq_none (h : opening? cs ≠ some 'x') : register? cs = none := by
  have hnone := literal?_of_opening? h []
  simp [register?, ← Option.bind_assoc, hnone]

theorem memory?_eq_none (h : opening? cs ≠ some 'm') : memory? cs = none := by
  have hnone := literal?_of_opening? h ['e', 'm']
  simp [memory?, ← Option.bind_assoc, hnone]

/-! ## Lines without a commit -/

theorem commitAt?_eq_none_iff :
    commitAt? cs = none ↔ ∀ rest, ¬ Begins (head hexDigits hexDigits) cs rest := by
  have hhead : commitAt? cs = none ↔ head? cs = none := by
    cases hhead : head? cs <;> simp [commitAt?, hhead]
  rw [hhead]
  constructor
  · intro hnone rest hbegins
    obtain ⟨_, -, _, -, hsome⟩ := head?_of_begins (le_refl _) (le_refl _) hbegins
    exact absurd (hnone.symm.trans hsome) nofun
  · intro hnone
    cases hhead : head? cs with
    | none => rfl
    | some result => exact absurd (begins_of_head? hhead) (hnone _)

theorem findCommit?_eq_none : findCommit? cs = none ↔ ∀ suffix, suffix <:+ cs → commitAt? suffix = none := by
  induction cs with
  | nil => simp [findCommit?, commitAt?, head?, literal?]
  | cons c cs ih =>
    rw [findCommit?, Option.orElse_eq_orElse, Option.orElse_eq_or, Option.or_eq_none_iff, ih]
    constructor
    · rintro ⟨hhere, hlater⟩ suffix hsuffix
      rcases List.suffix_cons_iff.1 hsuffix with rfl | hsuffix
      · exact hhere
      · exact hlater suffix hsuffix
    · intro h
      exact ⟨h _ List.suffix_rfl, fun suffix hsuffix => h suffix (hsuffix.trans (List.suffix_cons ..))⟩

/-- A text tells of no commit if and only if the pattern matches nowhere in it. -/
theorem findCommit?_eq_none_iff : findCommit? cs = none ↔ cs ∉ ⊤ * head hexDigits hexDigits * ⊤ := by
  simp only [findCommit?_eq_none, commitAt?_eq_none_iff]
  constructor
  · rintro hnone ⟨_, ⟨before, -, w, hw, rfl⟩, rest, -, rfl⟩
    refine hnone (w ++ rest) ⟨before, (List.append_assoc ..).symm⟩ rest ⟨w, hw, rfl⟩
  · rintro hnone _ ⟨before, rfl⟩ rest ⟨w, hw, rfl⟩
    refine hnone ⟨_, ⟨before, trivial, w, hw, rfl⟩, rest, trivial, List.append_assoc ..⟩

end Lockstep.CommitLog
