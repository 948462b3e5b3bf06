import Lockstep.Proofs.Differences
import Lockstep.Proofs.Files
import Lockstep.Proofs.Written
import Lockstep.Report
import Lockstep.TraceFile

/-!
# What a report shows of a mismatch

The lines of a report are its header and three lines for each mismatch (`lines_render`), and what stands in the
last two behind their labels are the fields of the two records. A field is never ambiguous: the words of a line
are separated by blanks, which none of them has, and each is read from its text alone. So two lines are the same
only if the records agree in all that is shown (`fields_eq_iff`).

Of memory everything is shown. The value of a register is shown with the number of the register, and not at all
if there is none: `printed_alike_iff` says that this hides a mismatch, and that nothing else does.
-/

namespace Lockstep

theorem Hex.isDigit_of_mem_fixed {c : Char} {width n : Nat} (h : c ∈ fixed width n) :
    isDigit c = true := by
  induction width generalizing n with
  | zero => cases h
  | succ width ih =>
    rcases List.mem_append.1 h with h | h
    · exact ih h
    · obtain rfl := List.mem_singleton.1 h
      rw [isDigit, digit?_digit (Nat.mod_lt _ (by decide))]
      rfl

namespace Report

variable {record other : Record} {value value' : Option UInt32} {c : Char}

/-! ## Single fields -/

/-- The characters of a field. -/
def IsFieldChar (c : Char) : Prop := c = '-' ∨ c = 'x' ∨ Hex.isDigit c = true

instance : DecidablePred IsFieldChar := fun c =>
  inferInstanceAs (Decidable (c = '-' ∨ c = 'x' ∨ Hex.isDigit c = true))

theorem isFieldChar_of_mem (h : c ∈ (field value).toList) : IsFieldChar c := by
  cases value with
  | none =>
    obtain rfl : c = '-' := by simpa [field] using h
    exact .inl rfl
  | some w =>
    simp only [field, Hex.word, String.toList_append, String.toList_ofList, List.mem_append] at h
    rcases h with h | h
    · rcases (by simpa using h : c = '0' ∨ c = 'x') with rfl | rfl
      · decide
      · decide
    · exact .inr (.inr (Hex.isDigit_of_mem_fixed h))

theorem notMem_field (value : Option UInt32) (h : ¬ IsFieldChar c) : c ∉ (field value).toList :=
  mt isFieldChar_of_mem h

theorem field_injective (h : field value = field value') : value = value' := by
  have hword (w : UInt32) : Hex.word w ≠ "-" := by
    intro h
    have hhead := congrArg (fun text => text.toList.head?) h
    simp [Hex.word] at hhead
  cases value with
  | none =>
    cases value' with
    | none => rfl
    | some w => exact absurd h.symm (hword w)
  | some v =>
    cases value' with
    | none => exact absurd h (hword v)
    | some w => exact congrArg some (Hex.word_injective h)

theorem toList_field_inj : (field value).toList = (field value').toList ↔ value = value' :=
  ⟨fun h => field_injective (String.toList_inj.1 h), fun h => h ▸ rfl⟩

/-! ## The words of a line -/

/-- The number of a register and its value. -/
def registerWord (record : Record) (reg : UInt8) : List Char :=
  'x' :: ((toString reg).toList ++ '=' :: (field record.regVal).toList)

/-- An address and the value at it. -/
def memoryWord (record : Record) : List Char :=
  "mem[".toList ++ (field record.memAddr).toList ++ ']' :: '=' :: (field record.memVal).toList

/-- There is an address or a value. -/
def showsMemory (record : Record) : Bool := record.memAddr.isSome || record.memVal.isSome

/-- The word of memory, if there is one. -/
def memoryWords (record : Record) : List (List Char) :=
  if showsMemory record then [memoryWord record] else []

/-- What stands behind the label of a line, blank by blank. -/
def words (record : Record) : List (List Char) :=
  ("pc=".toList ++ (field record.pc).toList) :: ("instr=".toList ++ (field record.instr).toList) ::
    (record.targetReg.toList.map (registerWord record) ++ memoryWords record)

theorem toString_text (text : String) : toString text = text := rfl

theorem toList_fields (record : Record) :
    (fields record).toList = [' '].intercalate (words record) := by
  obtain ⟨⟨reg, val, addr, mem⟩, pc, instr⟩ := record
  unfold fields words memoryWords showsMemory
  cases reg with
  | none => cases addr <;> cases mem <;> simp [List.intercalate, memoryWord]
  | some reg =>
    cases addr <;> cases mem <;> simp [List.intercalate, registerWord, memoryWord, toString_text]

theorem isDigit_of_mem_toString {n : Nat} (h : c ∈ (toString n).toList) : c.isDigit = true := by
  rw [Nat.toString_eq_ofList_toDigits, String.toList_ofList] at h
  exact Nat.isDigit_of_mem_toDigits (by decide) (by decide) h

/-- The characters of a word belong to a field, to the name of a field or to the number of a register. -/
theorem notMem_words (hfield : ¬ IsFieldChar c)
    (hname : c ∉ ['p', 'c', '=', 'i', 'n', 's', 't', 'r', 'm', 'e', '[', ']'])
    (hdigit : c.isDigit = false) : ∀ w ∈ words record, c ∉ w := by
  have hreg (reg : UInt8) : c ∉ (toString reg).toList := fun h => by
    rw [isDigit_of_mem_toString h] at hdigit
    cases hdigit
  have hx : c ≠ 'x' := fun h => hfield (.inr (.inl h))
  simp only [List.mem_cons, not_or] at hname
  intro w hw
  simp only [words, List.mem_cons, List.mem_append, List.mem_map] at hw
  rcases hw with rfl | rfl | ⟨reg, -, rfl⟩ | hw
  · simp [notMem_field _ hfield, hname]
  · simp [notMem_field _ hfield, hname]
  · simp [registerWord, notMem_field _ hfield, hname, hreg, hx]
  · unfold memoryWords at hw
    split at hw
    · obtain rfl := List.mem_singleton.1 hw
      simp [memoryWord, notMem_field _ hfield, hname]
    · cases hw

theorem toString_injective {reg reg' : UInt8} (h : toString reg = toString reg') : reg = reg' := by
  have hread (r : UInt8) : Json.Numeral.toNat? { whole := (toString r).toList } = some r.toNat :=
    Json.Reader.toNat?_toString r.toNat
  have hsame := (hread reg).symm.trans (h ▸ hread reg')
  exact UInt8.toNat_inj.1 (Option.some.inj hsame)

theorem registerWord_inj {reg reg' : UInt8} :
    registerWord record reg = registerWord other reg' ↔ reg = reg' ∧ record.regVal = other.regVal := by
  have hnumber : '=' ∉ (toString reg).toList := fun h => absurd (isDigit_of_mem_toString h) (by decide)
  have hvalue : '=' ∉ (field record.regVal).toList := notMem_field _ (by decide)
  unfold registerWord
  rw [List.cons_inj_right, List.append_cons_inj_of_notMem hnumber hvalue, toList_field_inj]
  constructor
  · rintro ⟨hreg, -, hval⟩
    exact ⟨toString_injective (String.toList_inj.1 hreg), hval⟩
  · rintro ⟨rfl, hval⟩
    exact ⟨rfl, rfl, hval⟩

theorem memoryWord_inj : memoryWord record = memoryWord other ↔
    record.memAddr = other.memAddr ∧ record.memVal = other.memVal := by
  have hfield (value : Option UInt32) : ']' ∉ (field value).toList := notMem_field _ (by decide)
  have haddr : ']' ∉ "mem[".toList ++ (field record.memAddr).toList := by simp [hfield]
  have hval : ']' ∉ '=' :: (field record.memVal).toList := by simp [hfield]
  unfold memoryWord
  rw [List.append_cons_inj_of_notMem haddr hval, List.append_cancel_left_eq, List.cons_inj_right,
    toList_field_inj, toList_field_inj]
  simp

/-- Of memory everything is shown. -/
theorem memoryWords_inj : memoryWords record = memoryWords other ↔
    record.memAddr = other.memAddr ∧ record.memVal = other.memVal := by
  unfold memoryWords
  have hnothing {r : Record} (h : showsMemory r = false) : r.memAddr = none ∧ r.memVal = none := by
    simpa [showsMemory] using h
  cases hrecord : showsMemory record with
  | false =>
    obtain ⟨haddr, hval⟩ := hnothing hrecord
    cases hother : showsMemory other with
    | false =>
      obtain ⟨haddr', hval'⟩ := hnothing hother
      simp [haddr, hval, haddr', hval']
    | true =>
      refine ⟨nofun, fun ⟨ha, hv⟩ => ?_⟩
      rw [showsMemory, ← ha, ← hv, haddr, hval] at hother
      cases hother
  | true =>
    cases hother : showsMemory other with
    | false =>
      obtain ⟨haddr, hval⟩ := hnothing hother
      refine ⟨nofun, fun ⟨ha, hv⟩ => ?_⟩
      rw [showsMemory, ha, hv, haddr, hval] at hrecord
      cases hrecord
    | true => simpa using memoryWord_inj

/-- The words show all but the value of a register without a number. -/
theorem words_eq_iff : words record = words other ↔
    record.pc = other.pc ∧ record.instr = other.instr ∧ record.targetReg = other.targetReg ∧
      (record.targetReg ≠ none → record.regVal = other.regVal) ∧
      record.memAddr = other.memAddr ∧ record.memVal = other.memVal := by
  -- The word of a register and that of memory begin with different letters.
  have hapart {r r' : Record} {reg : UInt8} {rest : List (List Char)} :
      registerWord r reg :: rest ≠ memoryWords r' := by
    unfold memoryWords
    split
    · intro h
      have hhead := (List.cons.inj h).1
      simp [registerWord, memoryWord] at hhead
    · exact nofun
  unfold words
  rw [List.cons.injEq, List.cons.injEq, List.append_cancel_left_eq, List.append_cancel_left_eq,
    toList_field_inj, toList_field_inj]
  refine and_congr_right fun _ => and_congr_right fun _ => ?_
  cases hreg : record.targetReg with
  | none =>
    cases hreg' : other.targetReg with
    | none => simpa using memoryWords_inj
    | some reg' => exact ⟨fun h => absurd h.symm hapart, nofun⟩
  | some reg =>
    cases hreg' : other.targetReg with
    | none => exact ⟨fun h => absurd h hapart, nofun⟩
    | some reg' =>
      change registerWord record reg :: memoryWords record =
        registerWord other reg' :: memoryWords other ↔ _
      rw [List.cons.injEq, registerWord_inj, memoryWords_inj]
      simp [and_assoc]

theorem fields_eq_iff : fields record = fields other ↔
    record.pc = other.pc ∧ record.instr = other.instr ∧ record.targetReg = other.targetReg ∧
      (record.targetReg ≠ none → record.regVal = other.regVal) ∧
      record.memAddr = other.memAddr ∧ record.memVal = other.memVal := by
  rw [← words_eq_iff, ← String.toList_inj, toList_fields, toList_fields]
  refine ⟨fun h => ?_, fun h => h ▸ rfl⟩
  have hblank (r : Record) : ([' '].intercalate (words r)).splitOn ' ' = words r :=
    List.splitOn_intercalate ' ' (notMem_words (by decide) (by decide) (by decide)) nofun
  rw [← hblank record, h, hblank other]

/-! ## The lines of a report -/

/-- The lines of a text. -/
def lines (text : String) : List (List Char) := text.toList.splitOn '\n'

/-- The lines of a mismatch: its kind, and the fields of both records behind their labels. -/
def printed (m : Mismatch) : List (List Char) :=
  [s!"#{m.index} {m.kind.text}".toList,
    ("  " ++ goldenLabel ++ " ").toList ++ (fields m.golden).toList,
    ("  " ++ deviceLabel ++ " ").toList ++ (fields m.device).toList]

theorem notMem_intercalate {blank : Char} {ws : List (List Char)} (hblank : c ≠ blank)
    (h : ∀ w ∈ ws, c ∉ w) : c ∉ [blank].intercalate ws := by
  induction ws with
  | nil => exact nofun
  | cons w ws ih =>
    obtain ⟨hw, hws⟩ := List.forall_mem_cons.1 h
    cases ws with
    | nil => simpa [List.intercalate] using hw
    | cons w' ws =>
      rw [List.intercalate_cons_cons]
      simp [hw, hblank, ih hws]

theorem newline_notMem_fields (record : Record) : '\n' ∉ (fields record).toList := by
  rw [toList_fields]
  exact notMem_intercalate (by decide) (notMem_words (by decide) (by decide) (by decide))

theorem newline_notMem_kind (kind : MismatchKind) : '\n' ∉ kind.text.toList := by
  cases kind <;> decide

theorem newline_notMem_printed (m : Mismatch) : ∀ l ∈ printed m, '\n' ∉ l := by
  have hindex : '\n' ∉ Nat.toDigits 10 m.index := fun h =>
    absurd (Nat.isDigit_of_mem_toDigits (by decide) (by decide) h) (by decide)
  intro l hl
  simp only [printed, List.mem_cons, List.not_mem_nil, or_false] at hl
  rcases hl with rfl | rfl | rfl
  · simp [toString_text, hindex, newline_notMem_kind]
  · simp [goldenLabel, newline_notMem_fields]
  · simp [deviceLabel, newline_notMem_fields]

theorem splitOn_lines {ls : List (List Char)} (h : ∀ l ∈ ls, '\n' ∉ l) (rest : List Char) :
    (ls.flatMap (· ++ ['\n']) ++ rest).splitOn '\n' = ls ++ rest.splitOn '\n' := by
  induction ls with
  | nil => rfl
  | cons l ls ih =>
    obtain ⟨hl, hls⟩ := List.forall_mem_cons.1 h
    rw [List.flatMap_cons, List.append_assoc, List.append_assoc, List.singleton_append,
      List.splitOn_append_cons_self, List.splitOn_eq_singleton hl, ih hls]
    rfl

theorem toList_mismatch (m : Mismatch) :
    (mismatch m).toList = (printed m).flatMap (· ++ ['\n']) := by
  simp [mismatch, line, printed, toString_text]

theorem lines_join (mismatches : List Mismatch) :
    lines (String.join (mismatches.map mismatch)) = mismatches.flatMap printed ++ [[]] := by
  induction mismatches with
  | nil => rfl
  | cons m mismatches ih =>
    unfold lines at ih ⊢
    rw [List.map_cons, String.join_cons, String.toList_append, toList_mismatch,
      splitOn_lines (newline_notMem_printed m), ih, List.flatMap_cons, List.append_assoc]

/-- Behind the header, a report has three lines for each mismatch. -/
theorem lines_render {mismatches : List Mismatch} (h : mismatches ≠ []) (colors : Bool)
    (name : String) : lines (render colors name mismatches) =
      lines (Highlight.boldRed.apply colors s!"{mismatches.length} mismatch(es) found for {name}") ++
        mismatches.flatMap printed ++ [[]] := by
  have hnonempty : mismatches.isEmpty = false := by simpa using h
  unfold render
  rw [hnonempty, if_neg Bool.false_ne_true, List.append_assoc, ← lines_join]
  unfold lines
  rw [String.toList_append, String.toList_append]
  exact (congrArg _ (List.append_assoc ..)).trans (List.splitOn_append_cons_self ..)

/-! ## What is hidden -/

variable {golden : List GoldenEntry} {entries : List ReconciledEntry} {settings : Settings}
  {m : Mismatch}

theorem kind_eq_regValue {field : Field} (h : field.kind record other = .regValue) :
    field = .regVal := by
  cases field with
  | regVal => rfl
  | targetReg => cases hg : record.targetReg <;> cases hd : other.targetReg <;>
      simp [Field.kind, placeKind, hg, hd] at h
  | memAddr => cases hg : record.memAddr <;> cases hd : other.memAddr <;>
      simp [Field.kind, placeKind, hg, hd] at h
  | _ => cases h

/-- A mismatch is that of a golden entry and a retired entry, or no retired entry is left. -/
theorem exists_pair_or_truncation (hm : m ∈ compareTraces golden entries settings) :
    (∃ expected ∈ golden, ∃ device ∈ entries, ∃ field,
      (expected.normalized settings).FirstDiffers device.record field ∧
        m = .ofField m.index (expected.normalized settings) device.record field) ∨
    ∃ expected : GoldenEntry, m = .truncation m.index (expected.normalized settings) := by
  rcases mem_compareFrom_iff.1 hm with ⟨i, expected, device, he, hd, hp⟩ | ⟨expected, -, rfl⟩
  · obtain ⟨field, hfirst, rfl⟩ := mem_pairMismatches_iff.1 hp
    have hdevice := List.mem_of_mem_filter (List.mem_of_getElem? hd)
    exact .inl ⟨expected, List.mem_of_getElem? he, device, hdevice, field, hfirst, rfl⟩
  · exact .inr ⟨expected, rfl⟩

/-- Records whose first difference is in a field are printed alike if that field is the value of a register
without a number, and memory is the same. -/
theorem fields_eq_iff_of_firstDiffers {field : Field} (h : record.FirstDiffers other field) :
    fields record = fields other ↔ field = .regVal ∧ record.targetReg = none ∧
      record.memAddr = other.memAddr ∧ record.memVal = other.memVal := by
  rw [fields_eq_iff]
  constructor
  · rintro ⟨hpc, hinstr, hreg, hval, haddr, hmem⟩
    cases field with
    | regVal => exact ⟨rfl, by_contra fun hnumber => h.differs (hval hnumber), haddr, hmem⟩
    | pc => exact absurd hpc h.differs
    | instr => exact absurd hinstr h.differs
    | targetReg => exact absurd hreg h.differs
    | memAddr => exact absurd haddr h.differs
    | memVal => exact absurd hmem h.differs
  · rintro ⟨rfl, hnumber, haddr, hmem⟩
    exact ⟨h.earlier .pc (by decide), h.earlier .instr (by decide), h.earlier .targetReg (by decide),
      fun hne => absurd hnumber hne, haddr, hmem⟩

/-- **What a report shows of its mismatches.** Behind the header there are three lines for each mismatch, and the
last two of them differ behind their labels, unless the mismatch is one of the value of a register that has no
number, with the same memory on both sides. So every mismatch shows where neither side has a value without a
number. -/
theorem printed_alike_iff (golden : List GoldenEntry) (entries : List ReconciledEntry)
    (settings : Settings) (colors : Bool) (name : String) :
    (compareTraces golden entries settings ≠ [] →
      lines (render colors name (compareTraces golden entries settings)) =
        lines (Highlight.boldRed.apply colors
          s!"{(compareTraces golden entries settings).length} mismatch(es) found for {name}") ++
        (compareTraces golden entries settings).flatMap printed ++ [[]]) ∧
    (∀ m ∈ compareTraces golden entries settings,
      (fields m.golden = fields m.device ↔ m.kind = .regValue ∧ m.golden.targetReg = none ∧
        m.golden.memAddr = m.device.memAddr ∧ m.golden.memVal = m.device.memVal)) ∧
    ((∀ entry ∈ golden, entry.targetReg = none → entry.regVal = none) →
      (∀ entry ∈ entries, entry.targetReg = none → entry.regVal = none) →
        ∀ m ∈ compareTraces golden entries settings, fields m.golden ≠ fields m.device) := by
  refine ⟨fun h => lines_render h colors name, fun m hm => ?_, fun hgolden hentries m hm => ?_⟩
  · rcases exists_pair_or_truncation hm with
      ⟨expected, -, device, -, field, hfirst, heq⟩ | ⟨expected, heq⟩
    · have hkind : m.kind = field.kind (expected.normalized settings) device.record :=
        congrArg Mismatch.kind heq
      have hregValue : m.kind = .regValue ↔ field = .regVal := by
        rw [hkind]
        exact ⟨kind_eq_regValue, fun h => h ▸ rfl⟩
      rw [hregValue, heq]
      exact fields_eq_iff_of_firstDiffers hfirst
    · rw [heq]
      refine ⟨fun h => ?_, nofun⟩
      cases (fields_eq_iff.1 h).1
  · rcases exists_pair_or_truncation hm with
      ⟨expected, hexpected, device, hdevice, field, hfirst, heq⟩ | ⟨expected, heq⟩
    · rw [heq]
      intro halike
      obtain ⟨rfl, hnumber, -, -⟩ := (fields_eq_iff_of_firstDiffers hfirst).1 halike
      have hnumber' : device.targetReg = none := (hfirst.earlier .targetReg (by decide)).symm.trans hnumber
      have hval : (expected.normalized settings).regVal = device.record.regVal :=
        (hgolden _ hexpected hnumber).trans (hentries _ hdevice hnumber').symm
      exact hfirst.differs hval
    · rw [heq]
      intro halike
      cases (fields_eq_iff.1 halike).1

/-- A golden trace whose only entry gives a value without the number of a register. -/
def loneValue : FileTree :=
  FileTree.empty.insert ["g.json"] (.file "[\x7b\"pc\":0,\"instr\":19,\"reg_val\":5\x7d]".toUTF8)

/-- The golden entry in it. -/
def loneEntry : GoldenEntry where
  pc := 0
  instr := 19
  regVal := some 5

/-- The value of the golden entry is a mismatch, and both lines leave it out. -/
theorem loneValue_hidden :
    TraceFile.readGolden "g.json" loneValue = .ok [loneEntry] ∧
    ∃ m, compareTraces [loneEntry] [.ofFetch ⟨0, 19⟩] {} = [m] ∧ m.kind = .regValue ∧
      fields m.golden = fields m.device := by
  refine ⟨by decide +kernel, _, rfl, rfl, by decide +kernel⟩

end Report

end Lockstep
