import Lockstep.Proofs.CommitPattern
import Lockstep.Proofs.GoldenFiles

/-!
# Lines as the simulator writes them

A commit has many spellings: the white space, the zeros in front of a number, the case of its letters and a note
behind it are free. `Numbers.line` is the language of all of them, whatever the sizes of the numbers. Each spelling
is taken apart into the digits of its numbers (`parseLine_of_mem_line`), and of these only numbers that fit make
an entry, which is the entry they stand for (`Commit.entry_eq_ok_iff`). So reading a line undoes writing it
(`parseLine_written`).

The parts that may be missing cannot be taken for each other: whatever follows a part opens with white space, and
behind that comes another letter than the part that is looked for begins with.
-/

namespace Lockstep

/-! ## Entries and their numbers -/

namespace CommitLog

/-- The numbers on the line of a commit, however large. -/
structure Numbers where
  pc : Nat
  instr : Nat
  /-- The number of the register and its value. -/
  register : Option (Nat × Nat) := none
  /-- The address and, for a write, the value. -/
  memory : Option (Nat × Option Nat) := none

namespace Numbers

/-- The values are words, and there is a register of that number. -/
structure Fit (numbers : Numbers) : Prop where
  pc : numbers.pc < UInt32.size
  instr : numbers.instr < UInt32.size
  register : ∀ write ∈ numbers.register, write.1 < registerCount ∧ write.2 < UInt32.size
  memory : ∀ access ∈ numbers.memory, access.1 < UInt32.size ∧ ∀ value ∈ access.2, value < UInt32.size

/-- The register write that hardware can show. -/
def write (numbers : Numbers) : Option (UInt8 × UInt32) :=
  numbers.register.bind fun (number, value) =>
    if number = 0 then none else some (UInt8.ofNat number, UInt32.ofNat value)

/-- The address that is accessed, and the value that is written there. -/
def access (numbers : Numbers) : Option UInt32 × Option UInt32 :=
  (numbers.memory.map fun access => UInt32.ofNat access.1, (numbers.memory.bind Prod.snd).map UInt32.ofNat)

/-- The entry that the numbers stand for. -/
def entry (numbers : Numbers) : GoldenEntry where
  pc := UInt32.ofNat numbers.pc
  instr := UInt32.ofNat numbers.instr
  targetReg := numbers.write.map Prod.fst
  regVal := numbers.write.map Prod.snd
  memAddr := numbers.access.1
  memVal := numbers.access.2

end Numbers

end CommitLog

namespace GoldenEntry

open CommitLog (Numbers)

/-- The numbers on the line of an entry. -/
def numbers (entry : GoldenEntry) : Numbers where
  pc := entry.pc.toNat
  instr := entry.instr.toNat
  register := do return ((← entry.targetReg).toNat, (← entry.regVal).toNat)
  memory := entry.memAddr.map fun address => (address.toNat, entry.memVal.map UInt32.toNat)

variable {entry : GoldenEntry}

theorem Logged.fit (h : entry.Logged) : entry.numbers.Fit := by
  refine ⟨entry.pc.toNat_lt, entry.instr.toNat_lt, ?_, ?_⟩
  · intro write hwrite
    obtain ⟨reg, hreg, hwrite⟩ := Option.bind_eq_some_iff.1 hwrite
    obtain ⟨value, -, hwrite⟩ := Option.bind_eq_some_iff.1 hwrite
    cases hwrite
    exact ⟨Nat.lt_succ_of_le (h.targetReg reg hreg).2, value.toNat_lt⟩
  · intro access haccess
    obtain ⟨address, -, rfl⟩ := Option.map_eq_some_iff.1 haccess
    refine ⟨address.toNat_lt, fun value hvalue => ?_⟩
    obtain ⟨word, -, rfl⟩ := Option.map_eq_some_iff.1 hvalue
    exact word.toNat_lt

theorem Logged.write_numbers (h : entry.Logged) :
    entry.numbers.write.map Prod.fst = entry.targetReg ∧ entry.numbers.write.map Prod.snd = entry.regVal := by
  have hvalue := h.regVal
  unfold Numbers.write numbers
  cases hreg : entry.targetReg with
  | none =>
    rw [hreg, Option.isSome_none, Option.isSome_eq_false_iff, Option.isNone_iff_eq_none] at hvalue
    exact ⟨rfl, hvalue.symm⟩
  | some reg =>
    obtain ⟨value, hvalue⟩ := Option.isSome_iff_exists.1 (hvalue.trans (hreg ▸ rfl))
    have hpos : reg.toNat ≠ 0 := Nat.ne_of_gt (h.targetReg reg hreg).1
    simp [hvalue, hpos]

theorem Logged.access_numbers (h : entry.Logged) : entry.numbers.access = (entry.memAddr, entry.memVal) := by
  have haddress := h.memAddr
  unfold Numbers.access numbers
  cases haddress : entry.memAddr <;> cases hvalue : entry.memVal <;> simp_all

/-- The numbers of an entry stand for it. -/
theorem Logged.entry_numbers (h : entry.Logged) : entry.numbers.entry = entry := by
  rw [Numbers.entry, h.write_numbers.1, h.write_numbers.2, h.access_numbers]
  simp [numbers]

/-- A write to register zero cannot be seen. -/
theorem Logged.entry_numbers_zero (h : entry.Logged) (value : Nat) :
    { entry.numbers with register := some (0, value) }.entry =
      { entry with targetReg := none, regVal := none } := by
  have haccess : { entry.numbers with register := some (0, value) }.access = entry.numbers.access := rfl
  rw [Numbers.entry, haccess, h.access_numbers]
  simp [numbers, Numbers.write]

end GoldenEntry

namespace CommitLog

variable {numbers : Numbers} {commit : Commit} {n : Nat} {w cs rest digits : List Char}

/-! ## From digits to an entry -/

/-- The digits of a register write are those of its numbers. -/
def SpellsWrite (digits : List Char × List Char) (write : Nat × Nat) : Prop :=
  digits.1 ∈ numeral 10 write.1 ∧ digits.2 ∈ numeral 16 write.2

/-- The digits of a memory access are those of its numbers. -/
def SpellsAccess (digits : List Char × Option (List Char)) (access : Nat × Option Nat) : Prop :=
  digits.1 ∈ numeral 16 access.1 ∧ Option.Rel (· ∈ numeral 16 ·) digits.2 access.2

/-- The digits of a commit are those of its numbers. -/
structure Commit.Spells (commit : Commit) (numbers : Numbers) : Prop where
  pc : commit.pc ∈ numeral 16 numbers.pc
  instr : commit.instr ∈ numeral 16 numbers.instr
  register : Option.Rel SpellsWrite commit.register numbers.register
  memory : Option.Rel SpellsAccess commit.memory numbers.memory

theorem word_eq_ok_iff {field : HexField} {value : UInt32} (h : digits ∈ numeral 16 n) :
    word field digits = .ok value ↔ n < UInt32.size ∧ value = UInt32.ofNat n := by
  rw [word, Hex.ofDigits_of_mem_numeral h]
  have hsize : UInt32.size ≤ UInt64.size := by decide
  split
  · simp; omega
  · split
    · simp; omega
    · simp [eq_comm]; omega

theorem registerNumber_eq_ok_iff {reg : UInt8} (h : digits ∈ numeral 10 n) :
    registerNumber digits = .ok reg ↔ n < registerCount ∧ reg = UInt8.ofNat n := by
  rw [registerNumber, asciiNumber?_of_mem_numeral h]
  dsimp only
  split <;> simp [*, eq_comm]

theorem ofNat_eq_zero_iff (h : n < registerCount) : UInt8.ofNat n = 0 ↔ n = 0 := by
  have hsmall : n < 32 := h
  rw [← UInt8.toNat_inj, UInt8.toNat_ofNat', UInt8.toNat_zero]
  omega

namespace Commit

theorem write_eq_ok_iff {write : Option (UInt8 × UInt32)} (h : commit.Spells numbers) :
    commit.write = .ok write ↔
      (∀ write ∈ numbers.register, write.1 < registerCount ∧ write.2 < UInt32.size) ∧
        write = numbers.write := by
  have hregister := h.register
  unfold Commit.write Numbers.write
  generalize commit.register = written at hregister
  generalize numbers.register = register at hregister
  cases hregister with
  | none => simp [pure, Except.pure, eq_comm]
  | @some digits register hdigits =>
    obtain ⟨number, value⟩ := register
    simp only [bind_eq_ok, registerNumber_eq_ok_iff hdigits.1, word_eq_ok_iff hdigits.2, Option.mem_some,
      Option.bind_some]
    constructor
    · rintro ⟨_, ⟨hnumber, rfl⟩, _, ⟨hvalue, rfl⟩, hwrite⟩
      simp only [ofNat_eq_zero_iff hnumber] at hwrite
      exact ⟨fun _ hregister => hregister ▸ ⟨hnumber, hvalue⟩, (Except.ok.inj hwrite).symm⟩
    · rintro ⟨hfit, rfl⟩
      obtain ⟨hnumber, hvalue⟩ := hfit _ rfl
      refine ⟨_, ⟨hnumber, rfl⟩, _, ⟨hvalue, rfl⟩, ?_⟩
      simp only [ofNat_eq_zero_iff hnumber]
      rfl

theorem access_eq_ok_iff {access : Option UInt32 × Option UInt32} (h : commit.Spells numbers) :
    commit.access = .ok access ↔
      (∀ access ∈ numbers.memory, access.1 < UInt32.size ∧ ∀ value ∈ access.2, value < UInt32.size) ∧
      access = numbers.access := by
  have hmemory := h.memory
  unfold Commit.access Numbers.access
  generalize commit.memory = written at hmemory
  generalize numbers.memory = memory at hmemory
  cases hmemory with
  | none => simp [pure, Except.pure, eq_comm]
  | @some digits memory hdigits =>
    obtain ⟨address, value⟩ := memory
    obtain ⟨addressDigits, valueDigits⟩ := digits
    obtain ⟨haddress, hvalue⟩ := hdigits
    cases hvalue with
    | none =>
      simp only [bind_eq_ok, word_eq_ok_iff haddress]
      constructor
      · rintro ⟨_, ⟨haddress, rfl⟩, haccess⟩
        refine ⟨?_, (Except.ok.inj haccess).symm⟩
        rintro _ ⟨⟩
        exact ⟨haddress, nofun⟩
      · rintro ⟨hfit, rfl⟩
        exact ⟨_, ⟨(hfit _ rfl).1, rfl⟩, rfl⟩
    | some hvalue =>
      simp only [bind_eq_ok, word_eq_ok_iff haddress, word_eq_ok_iff hvalue]
      constructor
      · rintro ⟨_, ⟨haddress, rfl⟩, _, ⟨hvalue, rfl⟩, haccess⟩
        refine ⟨?_, (Except.ok.inj haccess).symm⟩
        rintro _ ⟨⟩
        refine ⟨haddress, ?_⟩
        rintro _ ⟨⟩
        exact hvalue
      · rintro ⟨hfit, rfl⟩
        obtain ⟨haddress, hvalue⟩ := hfit _ rfl
        exact ⟨_, ⟨haddress, rfl⟩, _, ⟨hvalue _ rfl, rfl⟩, rfl⟩

/-- Only numbers that fit are read, and what is read is their entry. -/
theorem entry_eq_ok_iff {entry : GoldenEntry} (h : commit.Spells numbers) :
    commit.entry = .ok entry ↔ numbers.Fit ∧ entry = numbers.entry := by
  rw [entry_eq]
  simp only [bind_eq_ok, word_eq_ok_iff h.pc, word_eq_ok_iff h.instr, write_eq_ok_iff h, access_eq_ok_iff h]
  constructor
  · rintro ⟨_, ⟨hpc, rfl⟩, _, ⟨hinstr, rfl⟩, _, ⟨hregister, rfl⟩, _, ⟨hmemory, rfl⟩, hentry⟩
    exact ⟨⟨hpc, hinstr, hregister, hmemory⟩, (Except.ok.inj hentry).symm⟩
  · rintro ⟨hfit, rfl⟩
    exact ⟨_, ⟨hfit.pc, rfl⟩, _, ⟨hfit.instr, rfl⟩, _, ⟨hfit.register, rfl⟩, _,
      ⟨hfit.memory, rfl⟩, rfl⟩

end Commit

/-! ## The ways to write a commit -/

/-- A note of the value that a control register now has. Its number is not read, so it may be of any size. -/
def csrNote : Language Char :=
  blanks * literal ['c'] * run isDecimalDigit * literal ['_'] * run (fun c => !isBlank c) * hexWord hexDigits

/-- What may stand around a commit on its line. -/
def margin : Language Char := 1 + blanks

/-- The ways to write a part that may be missing. -/
def optional {α : Type} (part : α → Language Char) : Option α → Language Char
  | some a => part a
  | none => 1

namespace Numbers

/-- The ways to write the register write, if there is one. -/
def registerText (numbers : Numbers) : Language Char :=
  optional (fun (number, value) => CommitLog.register (numeral 10 number) (numeral 16 value)) numbers.register

/-- The ways to write the memory access, if there is one. -/
def memoryText (numbers : Numbers) : Language Char :=
  optional (fun (address, value) =>
    CommitLog.access (numeral 16 address) *
      optional (fun value => hexWord (numeral 16 value)) value) numbers.memory

/-- The ways to write a commit. -/
def text (numbers : Numbers) : Language Char :=
  head (numeral 16 numbers.pc) (numeral 16 numbers.instr) * numbers.registerText * numbers.memoryText *
    (1 + csrNote)

/-- The ways to write a commit on a line of its own. -/
def line (numbers : Numbers) : Language Char := margin * numbers.text * margin

end Numbers

theorem numeral_le_hexDigits (n : Nat) : numeral 16 n ≤ hexDigits := fun _ h =>
  ⟨ne_nil_of_mem_numeral h, Hex.isDigit_of_mem_numeral h⟩

theorem numeral_le_decimalDigits (n : Nat) : numeral 10 n ≤ run isDecimalDigit := fun _ h =>
  ⟨ne_nil_of_mem_numeral h, fun c hc => isDecimalDigit_of_isDigit (isDigit_of_mem_numeral h c hc)⟩

/-! ## Taking a line apart -/

/-- No part of a commit goes on or begins here. -/
structure Over (cs : List Char) : Prop where
  outside : Outside Hex.isDigit cs
  opening : opening? cs = none ∨ opening? cs = some 'c'

theorem Over.opening_ne (h : Over cs) {c : Char} (hc : c ≠ 'c') : opening? cs ≠ some c := by
  intro hopening
  rcases h.opening with hnone | hsome
  · cases hnone.symm.trans hopening
  · exact hc (Option.some.inj (hopening.symm.trans hsome))

theorem over_of_csrNote (h : Begins (1 + csrNote) cs []) : Over cs := by
  rcases begins_add.1 h with h | h
  · obtain rfl := begins_one.1 h
    exact ⟨outside_nil, .inl rfl⟩
  · simp only [csrNote, mul_assoc] at h
    exact ⟨h.outside_blanks hexDigit_of_isBlank, .inr (opening?_of_begins h (by decide))⟩

/-- What a register write is followed by. -/
theorem outside_and_opening?_of_memoryText (h : Begins numbers.memoryText cs rest) (hover : Over rest) :
    Outside Hex.isDigit cs ∧ opening? cs ≠ some 'x' := by
  unfold Numbers.memoryText at h
  cases hmemory : numbers.memory with
  | none =>
    rw [hmemory, optional, begins_one] at h
    exact h ▸ ⟨hover.outside, hover.opening_ne (by decide)⟩
  | some access =>
    rw [hmemory, optional, begins_mul] at h
    obtain ⟨_, haccess, -⟩ := h
    refine ⟨outside_of_access haccess, ?_⟩
    rw [opening?_of_access haccess]
    decide

theorem memory?_of_text (h : Begins numbers.memoryText cs rest) (hover : Over rest) :
    Option.Rel SpellsAccess ((memory? cs).map Prod.fst) numbers.memory := by
  unfold Numbers.memoryText at h
  cases hmemory : numbers.memory with
  | none =>
    rw [hmemory, optional, begins_one] at h
    rw [← h, memory?_eq_none (hover.opening_ne (by decide))]
    exact .none
  | some access =>
    obtain ⟨address, value⟩ := access
    rw [hmemory, optional, begins_mul] at h
    obtain ⟨mid, haccess, hvalue⟩ := h
    cases value with
    | none =>
      obtain rfl := begins_one.1 hvalue
      obtain ⟨addressDigits, haddress, hread⟩ :=
        memory?_of_begins (numeral_le_hexDigits address) haccess hover.outside
      rw [hread, hexWord?_eq_none (hover.opening_ne (by decide))]
      exact .some ⟨haddress, .none⟩
    | some value =>
      obtain ⟨addressDigits, haddress, hread⟩ := memory?_of_begins (numeral_le_hexDigits address) haccess
        (hvalue.outside_hexWord hexDigit_of_isBlank)
      obtain ⟨valueDigits, hvalue, hword⟩ :=
        hexWord?_of_begins (numeral_le_hexDigits value) hvalue hover.outside
      rw [hread, hword]
      exact .some ⟨haddress, .some hvalue⟩

theorem register?_of_text (h : Begins numbers.registerText cs rest) (hrest : Outside Hex.isDigit rest)
    (hopening : opening? rest ≠ some 'x') :
    ∃ write, Option.Rel SpellsWrite write numbers.register ∧ register? cs = write.map (·, rest) ∧
      (write = none → rest = cs) := by
  unfold Numbers.registerText at h
  cases hregister : numbers.register with
  | none =>
    rw [hregister, optional, begins_one] at h
    rw [← h, register?_eq_none hopening]
    exact ⟨none, .none, rfl, fun _ => rfl⟩
  | some write =>
    obtain ⟨number, value⟩ := write
    rw [hregister, optional] at h
    obtain ⟨numberDigits, hnumber, valueDigits, hvalue, hread⟩ :=
      register?_of_begins (numeral_le_decimalDigits number) (numeral_le_hexDigits value) h hrest
    rw [hread]
    exact ⟨some _, .some ⟨hnumber, hvalue⟩, rfl, nofun⟩

theorem commitAt?_of_mem_text (h : cs ∈ numbers.text) :
    ∃ commit : Commit, commitAt? cs = some commit ∧ commit.Spells numbers := by
  rw [← begins_nil_iff] at h
  simp only [Numbers.text, mul_assoc, begins_mul] at h
  obtain ⟨_, hhead, behind, hregister, _, hmemory, hcsr⟩ := h
  have hover := over_of_csrNote hcsr
  obtain ⟨hout, hopening⟩ := outside_and_opening?_of_memoryText hmemory hover
  obtain ⟨pc, hpc, instr, hinstr, hhead⟩ :=
    head?_of_begins (numeral_le_hexDigits numbers.pc) (numeral_le_hexDigits numbers.instr) hhead
  obtain ⟨write, hwrite, hregister, hsame⟩ := register?_of_text hregister hout hopening
  refine ⟨{ pc, instr, register := write, memory := (memory? behind).map Prod.fst }, ?_,
    ⟨hpc, hinstr, hwrite, memory?_of_text hmemory hover⟩⟩
  cases write with
  | none => simp [commitAt?, hhead, hregister, hsame rfl]
  | some write => simp [commitAt?, hhead, hregister]

/-! ## Trimming -/

theorem dropWhile_of_outside {p : Char → Bool} (h : Outside p cs) : cs.dropWhile p = cs := by
  cases cs with
  | nil => rfl
  | cons c cs => exact List.dropWhile_cons_of_neg (by simp [h c rfl])

theorem trim_of_outside (hstart : Outside isBlank cs) (hend : Outside isBlank cs.reverse) : trim cs = cs := by
  rw [trim, trimStart, dropWhile_of_outside hstart, dropWhile_of_outside hend, List.reverse_reverse]

theorem isBlank_of_mem_margin (h : w ∈ margin) : ∀ c ∈ w, isBlank c = true := by
  rcases h with rfl | ⟨-, hall⟩
  · exact nofun
  · exact hall

theorem trim_of_mem_margin {before after : List Char} (hbefore : before ∈ margin) (hafter : after ∈ margin)
    (hstart : Outside isBlank cs) (hend : Outside isBlank cs.reverse) : trim (before ++ cs ++ after) = cs := by
  rw [trim_append_of_blank (isBlank_of_mem_margin hafter), trim_blank_append (isBlank_of_mem_margin hbefore),
    trim_of_outside hstart hend]

/-- Every word of the language ends in a character that is not white space. -/
def Ended (language : Language Char) : Prop := ∀ w ∈ language, ∃ c ∈ w.getLast?, isBlank c = false

variable {first second : Language Char}

theorem Ended.outside (h : Ended first) (hw : w ∈ first) : Outside isBlank w.reverse := by
  intro c hc
  obtain ⟨last, hlast, hblank⟩ := h w hw
  rw [List.head?_reverse] at hc
  rwa [← Option.mem_unique hlast hc]

theorem Ended.add (hfirst : Ended first) (hsecond : Ended second) : Ended (first + second) := by
  rintro w (hw | hw)
  · exact hfirst w hw
  · exact hsecond w hw

theorem Ended.mul (first : Language Char) (h : Ended second) : Ended (first * second) := by
  rintro _ ⟨v, -, w, hw, rfl⟩
  obtain ⟨last, hlast, hblank⟩ := h w hw
  exact ⟨last, List.mem_getLast?_append_of_mem_getLast? hlast, hblank⟩

theorem ended_of_le_run {p : Char → Bool} (hle : first ≤ run p) (h : ∀ c, p c = true → isBlank c = false) :
    Ended first := by
  intro w hw
  obtain ⟨hne, hall⟩ := hle hw
  exact ⟨w.getLast hne, List.getLast?_eq_some_getLast hne, h _ (hall _ (List.getLast_mem hne))⟩

theorem ended_hexWord {number : Language Char} (h : number ≤ hexDigits) : Ended (hexWord number) :=
  .mul _ (ended_of_le_run h isBlank_of_hexDigit)

theorem Ended.mul_optional {α : Type} {part : α → Language Char} (hfirst : Ended first)
    (h : ∀ a, Ended (part a)) (a : Option α) : Ended (first * optional part a) := by
  cases a with
  | none => rwa [optional, mul_one]
  | some a => exact .mul _ (h a)

theorem ended_register (write : Nat × Nat) :
    Ended (CommitLog.register (numeral 10 write.1) (numeral 16 write.2)) :=
  .mul _ (ended_hexWord (numeral_le_hexDigits write.2))

theorem ended_access (access : Nat × Option Nat) :
    Ended (CommitLog.access (numeral 16 access.1) * optional (fun value => hexWord (numeral 16 value)) access.2) :=
  .mul_optional (.mul _ (ended_hexWord (numeral_le_hexDigits access.1)))
    (fun value => ended_hexWord (numeral_le_hexDigits value)) access.2

theorem ended_text (numbers : Numbers) : Ended numbers.text := by
  have hhead : Ended (head (numeral 16 numbers.pc) (numeral 16 numbers.instr)) := by
    apply Ended.mul
    rintro _ rfl
    exact ⟨')', rfl, by decide⟩
  have hmemory := (hhead.mul_optional ended_register numbers.register).mul_optional ended_access numbers.memory
  rw [Numbers.text, mul_add, mul_one]
  exact hmemory.add (.mul _ (.mul _ (ended_hexWord (le_refl _))))

theorem head?_of_mem_text (h : cs ∈ numbers.text) : cs.head? = some 'c' := by
  rw [← begins_nil_iff] at h
  simp only [Numbers.text, head, mul_assoc, begins_mul] at h
  obtain ⟨_, hcore, -⟩ := h
  rw [← begins_literal.1 hcore]
  rfl

/-- What is made of a spelling is up to the digits of its numbers. -/
theorem parseLine_of_mem_line {line : List Char} (h : line ∈ numbers.line) :
    ∃ commit : Commit, commit.Spells numbers ∧ parseLine line = some <$> commit.entry := by
  obtain ⟨_, ⟨before, hbefore, text, htext, rfl⟩, after, hafter, rfl⟩ := h
  have hletter := head?_of_mem_text htext
  have htrim : trim (before ++ text ++ after) = text := by
    apply trim_of_mem_margin hbefore hafter
    · rintro c hc
      obtain rfl := Option.mem_unique hletter hc
      decide
    · exact (ended_text numbers).outside htext
  obtain ⟨cs, rfl⟩ := List.head?_eq_some_iff.1 hletter
  have hwarning : isWarning ('c' :: cs) = false := rfl
  obtain ⟨commit, hcommit, hspells⟩ := commitAt?_of_mem_text htext
  have hfind : findCommit? ('c' :: cs) = some commit := by
    rw [findCommit?, hcommit]
    rfl
  refine ⟨commit, hspells, ?_⟩
  simp only [parseLine, htrim, hwarning, hfind]
  rfl

/-- **Reading a line undoes writing it**, however it is written. A write to register zero is dropped, and a
line with a value that is no word or with a register that does not exist is refused. -/
theorem parseLine_written :
    (∀ entry : GoldenEntry, entry.Logged →
      ∀ line ∈ entry.numbers.line, parseLine line = .ok (some entry)) ∧
    (∀ entry : GoldenEntry, entry.Logged → ∀ value : UInt32,
      ∀ line ∈ { entry.numbers with register := some (0, value.toNat) }.line,
        parseLine line = .ok (some { entry with targetReg := none, regVal := none })) ∧
    ∀ numbers : Numbers, ¬ numbers.Fit →
      ∀ line ∈ numbers.line, ∃ fault, parseLine line = .error fault := by
  have hread (numbers : Numbers) (hfit : numbers.Fit) (line : List Char) (hline : line ∈ numbers.line) :
      parseLine line = .ok (some numbers.entry) := by
    obtain ⟨commit, hspells, hparse⟩ := parseLine_of_mem_line hline
    rw [hparse, (Commit.entry_eq_ok_iff hspells).2 ⟨hfit, rfl⟩]
    rfl
  refine ⟨?_, ?_, ?_⟩
  · intro entry hlogged line hline
    rw [hread _ hlogged.fit line hline, hlogged.entry_numbers]
  · intro entry hlogged value line hline
    have hfit : { entry.numbers with register := some (0, value.toNat) }.Fit := by
      refine ⟨hlogged.fit.pc, hlogged.fit.instr, ?_, hlogged.fit.memory⟩
      rintro _ ⟨⟩
      exact ⟨(by decide : 0 < registerCount), value.toNat_lt⟩
    rw [hread _ hfit line hline, hlogged.entry_numbers_zero]
  · intro numbers hfit line hline
    obtain ⟨commit, hspells, hparse⟩ := parseLine_of_mem_line hline
    cases hentry : commit.entry with
    | ok entry => exact absurd ((Commit.entry_eq_ok_iff hspells).1 hentry).1 hfit
    | error fault => exact ⟨fault, hparse.trans (hentry ▸ rfl)⟩

/-- A load that is written with capital letters, with more zeros than it needs and with a note behind it. -/
def loadLine (number value : List Char) : List Char :=
  "\t core   0: 3 0x100C (0x0182A283) x".toList ++ (number ++ ("  0x".toList ++ (value ++
    " mem 0x000000000000000000001018 c1_fflags 0x1ffffffff \r".toList)))

/-- The numbers of a load. -/
def loadNumbers (number value : Nat) : Numbers where
  pc := 0x100c
  instr := 0x0182a283
  register := some (number, value)
  memory := some (0x1018, none)

theorem loadLine_mem {number value : Nat} {numberDigits valueDigits : List Char}
    (hnumber : numberDigits ∈ numeral 10 number) (hvalue : valueDigits ∈ numeral 16 value) :
    loadLine numberDigits valueDigits ∈ (loadNumbers number value).line := by
  have hone : [' '] ∈ blanks := mem_run (by decide) (by decide)
  have htwo : [' ', ' '] ∈ blanks := mem_run (by decide) (by decide)
  have hthree : [' ', ' ', ' '] ∈ blanks := mem_run (by decide) (by decide)
  have hbefore : ['\t', ' '] ∈ margin := .inr (mem_run (by decide) (by decide))
  have hafter : [' ', '\r'] ∈ margin := .inr (mem_run (by decide) (by decide))
  have hhart : ['0'] ∈ run isDecimalDigit := mem_run (by decide) (by decide)
  have hprivilege : ['3'] ∈ run isDecimalDigit := mem_run (by decide) (by decide)
  have hpc : "100C".toList ∈ numeral 16 0x100c := ⟨0, by decide⟩
  have hinstr : "0182A283".toList ∈ numeral 16 0x0182a283 := ⟨1, by decide⟩
  have haddress : "000000000000000000001018".toList ∈ numeral 16 0x1018 := ⟨20, by decide⟩
  have hhead (rest : List Char) : Begins (head (numeral 16 0x100c) (numeral 16 0x0182a283))
      ("core   0: 3 0x100C (0x0182A283)".toList ++ rest) rest := by
    simp only [head, hexWord, mul_assoc]
    exact .mul ⟨_, rfl, rfl⟩ <| .mul ⟨_, hthree, rfl⟩ <| .mul ⟨_, hhart, rfl⟩ <|
      .mul ⟨_, rfl, rfl⟩ <| .mul ⟨_, hone, rfl⟩ <| .mul ⟨_, hprivilege, rfl⟩ <|
      .mul ⟨_, hone, rfl⟩ <| .mul ⟨_, rfl, rfl⟩ <| .mul ⟨_, hpc, rfl⟩ <| .mul ⟨_, hone, rfl⟩ <|
      .mul ⟨_, rfl, rfl⟩ <| .mul ⟨_, hinstr, rfl⟩ ⟨_, rfl, rfl⟩
  have hregister (rest : List Char) : Begins (loadNumbers number value).registerText
      (" x".toList ++ (numberDigits ++ ("  0x".toList ++ (valueDigits ++ rest)))) rest := by
    simp only [loadNumbers, Numbers.registerText, optional, register, hexWord, mul_assoc]
    exact .mul ⟨_, hone, rfl⟩ <| .mul ⟨_, rfl, rfl⟩ <| .mul ⟨_, hnumber, rfl⟩ <|
      .mul ⟨_, htwo, rfl⟩ <| .mul ⟨_, rfl, rfl⟩ ⟨_, hvalue, rfl⟩
  have hmemory (rest : List Char) : Begins (loadNumbers number value).memoryText
      (" mem 0x000000000000000000001018".toList ++ rest) rest := by
    simp only [loadNumbers, Numbers.memoryText, optional, access, hexWord, mul_assoc, mul_one]
    exact .mul ⟨_, hone, rfl⟩ <| .mul ⟨_, rfl, rfl⟩ <| .mul ⟨_, hone, rfl⟩ <| .mul ⟨_, rfl, rfl⟩
      ⟨_, haddress, rfl⟩
  have hcsr (rest : List Char) : Begins (1 + csrNote) (" c1_fflags 0x1ffffffff".toList ++ rest) rest := by
    have hnumber : ['1'] ∈ run isDecimalDigit := mem_run (by decide) (by decide)
    have hname : "fflags".toList ∈ run (fun c => !isBlank c) := mem_run (by decide) (by decide)
    have hnote : "1ffffffff".toList ∈ hexDigits := mem_run (by decide) (by decide)
    simp only [begins_add, csrNote, hexWord, mul_assoc]
    exact .inr <| .mul ⟨_, hone, rfl⟩ <| .mul ⟨_, rfl, rfl⟩ <| .mul ⟨_, hnumber, rfl⟩ <|
      .mul ⟨_, rfl, rfl⟩ <| .mul ⟨_, hname, rfl⟩ <| .mul ⟨_, hone, rfl⟩ <| .mul ⟨_, rfl, rfl⟩
      ⟨_, hnote, rfl⟩
  rw [← begins_nil_iff]
  simp only [Numbers.line, Numbers.text, mul_assoc]
  exact .mul ⟨_, hbefore, rfl⟩ <| .mul (hhead _) <| .mul (hregister _) <| .mul (hmemory _) <|
    .mul (hcsr " \r".toList) ⟨_, hafter, rfl⟩

/-- The entry of a load of `0xab`. -/
def loadEntry : GoldenEntry where
  pc := 0x100c
  instr := 0x0182a283
  targetReg := some 5
  regVal := some 0xab
  memAddr := some 0x1018

theorem parseLine_written_of_load :
    parseLine (loadLine ['5'] "00000000Ab".toList) = .ok (some loadEntry) ∧
    parseLine (loadLine ['0'] "00000000Ab".toList) =
      .ok (some { loadEntry with targetReg := none, regVal := none }) ∧
    (∃ fault, parseLine (loadLine ['5'] "100000000".toList) = .error fault) ∧
    ∃ fault, parseLine (loadLine ['3', '2'] ['1']) = .error fault := by
  obtain ⟨hentry, hzero, herror⟩ := parseLine_written
  have hlogged : loadEntry.Logged := by
    refine ⟨rfl, ?_, nofun⟩
    rintro _ ⟨⟩
    decide
  have hvalue : "00000000Ab".toList ∈ numeral 16 0xab := ⟨8, by decide⟩
  refine ⟨hentry loadEntry hlogged _ (loadLine_mem ⟨0, by decide⟩ hvalue),
    hzero loadEntry hlogged 0xab _ (loadLine_mem ⟨0, by decide⟩ hvalue),
    herror (loadNumbers 5 0x100000000) ?_ _ (loadLine_mem ⟨0, by decide⟩ ⟨0, by decide⟩),
    herror (loadNumbers 32 1) ?_ _ (loadLine_mem ⟨0, by decide⟩ ⟨0, by decide⟩)⟩
  · exact fun hfit => absurd (hfit.register _ rfl).2 (by decide)
  · exact fun hfit => absurd (hfit.register _ rfl).1 (by decide)

end CommitLog

end Lockstep
