import Lockstep.CommandLine.Run
import Lockstep.Proofs.Directories
import Lockstep.Proofs.Effects
import Lockstep.Proofs.Written

/-!
# Golden trace files

Reading a golden trace that was written is checking its entries (`readGolden_of_write`): the text is taken
apart as it was put together, and only a register that does not exist is refused. The registers of a
commit log all exist (`CommitLog.parse_inRange`), so a trace that is made of a log is read as it was
written (`readGolden_of_readLog`). The log itself is kept, for no golden trace is called as a log is.
-/

namespace Lockstep

open Json (Fault Reader)
open Json.Reader (TakesMembers)

/-! ## Entries -/

namespace GoldenEntry

/-- A register that is read has to be one that exists. -/
def existing : Option UInt8 → Except Fault (Option UInt8)
  | some reg =>
    if reg.toNat < registerCount then .ok (some reg)
    else .error (.rejected s!"register index {reg} out of range (0..{registerCount})")
  | none => .ok none

/-- An entry that is read has to name a register that exists, if any. -/
def check (entry : GoldenEntry) : Except Fault GoldenEntry :=
  (existing entry.targetReg).map fun _ => entry

theorem register_takes (reg : Option UInt8) :
    register.Takes (Json.orNull (fun reg => .nat reg.toNat) reg) (existing reg) :=
  (Reader.orNull_takes Reader.byte_takes reg).mapExcept _

theorem register_skipsSpace : register.SkipsSpace := Reader.byte_skipsSpace.orNull.mapExcept _

theorem eq_of_existing {value reg : Option UInt8} (h : existing value = .ok reg) : reg = value := by
  unfold existing at h
  split at h
  · split at h
    · exact (Except.ok.inj h).symm
    · cases h
  · exact (Except.ok.inj h).symm

/-- What is known of an entry once all its members are read. -/
def known (entry : GoldenEntry) : Known where
  pc := some entry.pc
  instr := some entry.instr
  targetReg := some entry.targetReg
  regVal := some entry.regVal
  memAddr := some entry.memAddr
  memVal := some entry.memVal

theorem takesMembers (entry : GoldenEntry) :
    TakesMembers member {} (entry.toFetch.members ++ entry.toEffect.members)
      ((existing entry.targetReg).map fun _ => entry.known) := by
  have hword (value : Option UInt32) : Reader.word.orNull.Takes (Json.orNull .word value) (.ok value) :=
    Reader.orNull_takes Reader.word_takes value
  have hskips := Reader.word_skipsSpace
  refine .cons rfl (hskips.map _) ((Reader.word_takes entry.pc).map _) ?_
  refine .cons rfl (hskips.map _) ((Reader.word_takes entry.instr).map _) ?_
  have hregister := register_takes entry.targetReg
  cases hexisting : existing entry.targetReg with
  | error e =>
    rw [hexisting] at hregister
    exact .refused rfl (register_skipsSpace.map _) (hregister.mapExcept _)
  | ok reg =>
    rw [hexisting, eq_of_existing hexisting] at hregister
    refine .cons rfl (register_skipsSpace.map _) (hregister.map _) ?_
    refine .cons rfl (hskips.orNull.map _) ((hword entry.regVal).map _) ?_
    refine .cons rfl (hskips.orNull.map _) ((hword entry.memAddr).map _) ?_
    refine .cons rfl (hskips.orNull.map _) ((hword entry.memVal).map _) ?_
    exact .nil _

theorem ofArray_skipsSpace : ofArray.SkipsSpace := (Reader.token_skipsSpace _).andThen _

theorem reader_skipsSpace : reader.SkipsSpace := by
  apply Reader.byNext_skipsSpace
  intro t
  split
  · exact (Reader.members_skipsSpace member {}).mapExcept _
  · exact ofArray_skipsSpace

theorem reader_takes (entry : GoldenEntry) : reader.Takes entry.json entry.check := by
  apply Reader.byNext_takes (Reader.startsWith_object _)
  have htakes := (Reader.members_takes entry.takesMembers).mapExcept ofKnown
  rw [check]
  cases hexisting : existing entry.targetReg with
  | error e =>
    rw [hexisting] at htakes
    exact htakes
  | ok reg =>
    rw [hexisting] at htakes
    exact htakes

/-- The register of an entry, if there is one, is one of the 32. -/
def InRange (entry : GoldenEntry) : Prop := ∀ reg ∈ entry.targetReg, reg.toNat ≤ 31

instance : DecidablePred InRange := fun entry =>
  decidable_of_iff (entry.targetReg.all (·.toNat ≤ 31) = true) (by simp [InRange, Option.all_eq_true])

/-- An entry of the kind that a log can tell of: a register is written together with its value, it is one that
hardware can show, and nothing is stored without an address. -/
structure Logged (entry : GoldenEntry) : Prop where
  regVal : entry.regVal.isSome = entry.targetReg.isSome
  targetReg : ∀ reg ∈ entry.targetReg, 1 ≤ reg.toNat ∧ reg.toNat ≤ 31
  memAddr : entry.memVal.isSome = true → entry.memAddr.isSome = true

theorem Logged.inRange {entry : GoldenEntry} (h : entry.Logged) : entry.InRange :=
  fun reg hreg => (h.targetReg reg hreg).2

theorem check_of_inRange {entry : GoldenEntry} (h : entry.InRange) : entry.check = .ok entry := by
  unfold check existing
  split
  · next reg hreg =>
    have hlt : reg.toNat < registerCount := Nat.lt_succ_of_le (h reg hreg)
    rw [if_pos hlt]
    rfl
  · rfl

theorem check_of_lt {entry : GoldenEntry} {reg : UInt8} (hreg : reg ∈ entry.targetReg)
    (h : 31 < reg.toNat) : entry.check =
      .error (.rejected s!"register index {reg} out of range (0..{registerCount})") := by
  have hge : ¬ reg.toNat < registerCount := Nat.not_lt_of_le h
  rw [check, hreg, existing, if_neg hge]
  rfl

theorem mapM_check_of_inRange {entries : List GoldenEntry}
    (h : ∀ entry ∈ entries, entry.InRange) :
    entries.mapM check = .ok entries := by
  induction entries with
  | nil => rfl
  | cons entry entries ih =>
    obtain ⟨hentry, hentries⟩ := List.forall_mem_cons.1 h
    rw [List.mapM_cons, check_of_inRange hentry, ih hentries]
    rfl

/-- The first register that does not exist is the one that is reported. -/
theorem exists_refused {entries : List GoldenEntry}
    (h : ¬ ∀ entry ∈ entries, entry.InRange) :
    ∃ entry ∈ entries, ∃ reg ∈ entry.targetReg, 31 < reg.toNat ∧
      entries.mapM check =
        .error (.rejected s!"register index {reg} out of range (0..{registerCount})") := by
  induction entries with
  | nil => exact absurd nofun h
  | cons entry entries ih =>
    rw [List.mapM_cons]
    by_cases hentry : entry.InRange
    · obtain ⟨other, hother, reg, hreg, hlt, hcheck⟩ :=
        ih fun hentries => h (List.forall_mem_cons.2 ⟨hentry, hentries⟩)
      refine ⟨other, List.mem_cons_of_mem _ hother, reg, hreg, hlt, ?_⟩
      rw [check_of_inRange hentry, hcheck]
      rfl
    · obtain ⟨reg, hreg, hlt⟩ : ∃ reg ∈ entry.targetReg, 31 < reg.toNat := by
        simpa [InRange] using hentry
      refine ⟨entry, List.mem_cons_self, reg, hreg, hlt, ?_⟩
      rw [check_of_lt hreg hlt]
      rfl

end GoldenEntry

/-! ## Files -/

namespace TraceFile

/-- A text that begins with a bracket has no header. -/
theorem stripHeader_bracket (cs : List Char) : stripHeader ('[' :: cs) = '[' :: cs := by
  apply stripHeader_of_bare
  intro rest
  have hblank : trimStart ('[' :: cs) = '[' :: cs := List.dropWhile_cons_of_neg (by decide)
  rw [hblank]
  nofun

/-- Reading a written array is checking its elements. -/
theorem parse_array {α β : Type} {element : Reader α} {write : β → Json}
    {check : β → Except Fault α} (hskips : element.SkipsSpace)
    (h : ∀ b, element.Takes (write b) (check b))
    (hstart : ∀ b, ∃ t, Reader.StartsWith (write b) t ∧ t ≠ .rightBracket) (bs : List β) :
    parse (.elements element) (Json.array (bs.map write)).text = bs.mapM check := by
  have htext : ∃ cs, (Json.array (bs.map write)).text.toList = '[' :: cs := by
    rw [Json.text, String.toList_ofList]
    cases bs with
    | nil => exact ⟨_, rfl⟩
    | cons b bs => exact ⟨_, rfl⟩
  obtain ⟨cs, hcs⟩ := htext
  rw [parse, hcs, stripHeader_bracket, ← hcs]
  exact Reader.readAll_of_takes (Reader.elements_takes hskips h hstart bs)

/-- Reading a golden trace that was written is checking its entries. -/
theorem readGolden_of_write {path : String} {entries : List GoldenEntry} {files files' : FileTree}
    (h : writeGolden path entries files = .ok files') :
    readGolden path files' =
      (entries.mapM GoldenEntry.check).mapError (.malformedTrace path) := by
  have hstart (entry : GoldenEntry) :
      ∃ t, Reader.StartsWith entry.json t ∧ t ≠ .rightBracket :=
    ⟨_, Reader.startsWith_object _, nofun⟩
  have hparse := parse_array GoldenEntry.reader_skipsSpace GoldenEntry.reader_takes hstart entries
  unfold readGolden read
  rw [FileTree.readText_of_read (read_of_write h), ← hparse]
  rfl

end TraceFile

/-! ## Commit logs -/

namespace CommitLog

theorem registerNumber_le {digits : List Char} {reg : UInt8} (h : registerNumber digits = .ok reg) :
    reg.toNat ≤ 31 := by
  unfold registerNumber at h
  split at h
  · next n _ =>
    split at h
    · next hlt =>
      obtain rfl := Except.ok.inj h
      have hsmall : n < 32 := hlt
      rw [UInt8.toNat_ofNat']
      omega
    · cases h
  · cases h

namespace Commit

/-- The register that a commit writes to, and the value. -/
def write (commit : Commit) : Except LineFault (Option (UInt8 × UInt32)) :=
  match commit.register with
  | some (number, value) => do
    let reg ← registerNumber number
    let value ← word .regVal value
    pure (if reg = 0 then none else some (reg, value))
  | none => pure none

/-- The address that a commit accesses, and the value that it writes there. -/
def access (commit : Commit) : Except LineFault (Option UInt32 × Option UInt32) :=
  match commit.memory with
  | some (address, some value) => do
    return (some (← word .memAddr address), some (← word .memVal value))
  | some (address, none) => do return (some (← word .memAddr address), none)
  | none => pure (none, none)

theorem entry_eq (commit : Commit) :
    commit.entry = (do
      let pc ← word .pc commit.pc
      let instr ← word .instr commit.instr
      let write ← commit.write
      let (memAddr, memVal) ← commit.access
      return {
        pc, instr, memAddr, memVal
        targetReg := write.map Prod.fst
        regVal := write.map Prod.snd }) := by
  obtain ⟨pc, instr, register, memory⟩ := commit
  rcases register with _ | ⟨number, value⟩ <;> rcases memory with _ | ⟨address, _ | stored⟩ <;>
    simp [entry, write, access]

theorem write_register {commit : Commit} {reg : UInt8} {value : UInt32}
    (h : commit.write = .ok (some (reg, value))) : 1 ≤ reg.toNat ∧ reg.toNat ≤ 31 := by
  unfold write at h
  split at h
  · obtain ⟨named, hnamed, h⟩ := bind_eq_ok.1 h
    obtain ⟨_, -, h⟩ := bind_eq_ok.1 h
    have hkept := Except.ok.inj h
    split at hkept
    · cases hkept
    · next hzero =>
      cases hkept
      refine ⟨Nat.pos_of_ne_zero fun h => hzero ?_, registerNumber_le hnamed⟩
      exact UInt8.toNat_inj.1 h
  · cases h

theorem access_address {commit : Commit} {memAddr memVal : Option UInt32}
    (h : commit.access = .ok (memAddr, memVal)) : memVal.isSome = true → memAddr.isSome = true := by
  unfold access at h
  split at h
  · obtain ⟨_, -, h⟩ := bind_eq_ok.1 h
    obtain ⟨_, -, h⟩ := bind_eq_ok.1 h
    cases h
    exact fun _ => rfl
  · obtain ⟨_, -, h⟩ := bind_eq_ok.1 h
    cases h
    exact fun _ => rfl
  · cases h
    exact nofun

theorem entry_logged {commit : Commit} {entry : GoldenEntry} (h : commit.entry = .ok entry) :
    entry.Logged := by
  rw [entry_eq] at h
  obtain ⟨_, -, h⟩ := bind_eq_ok.1 h
  obtain ⟨_, -, h⟩ := bind_eq_ok.1 h
  obtain ⟨write, hwrite, h⟩ := bind_eq_ok.1 h
  obtain ⟨⟨_, _⟩, haccess, h⟩ := bind_eq_ok.1 h
  obtain rfl := Except.ok.inj h
  refine ⟨by simp, ?_, access_address haccess⟩
  intro reg hreg
  obtain ⟨⟨_, value⟩, rfl, rfl⟩ := Option.map_eq_some_iff.1 hreg
  exact write_register hwrite

end Commit

theorem parseLine_logged {line : List Char} {entry : GoldenEntry}
    (h : parseLine line = .ok (some entry)) : entry.Logged := by
  unfold parseLine at h
  dsimp only at h
  split at h
  · cases h
  · split at h
    · next commit _ =>
      cases hentry : commit.entry with
      | error fault =>
        rw [hentry] at h
        cases h
      | ok entry' =>
        rw [hentry] at h
        cases h
        exact commit.entry_logged hentry
    · cases h

theorem entriesFrom_logged {number : Nat} {lines : List (List UInt8)} {entries : List GoldenEntry}
    (h : entriesFrom number lines = .ok entries) :
    ∀ entry ∈ entries, entry.Logged := by
  induction lines generalizing number entries with
  | nil =>
    cases h
    exact nofun
  | cons line lines ih =>
    simp only [entriesFrom] at h
    cases hline : parseLine (Utf8.decodeLossy line) with
    | error fault => simp [hline] at h
    | ok commit =>
      cases hrest : entriesFrom (number + 1) lines with
      | error fault => simp [hline, hrest] at h
      | ok rest =>
        rw [hline, hrest] at h
        obtain rfl := Except.ok.inj h
        intro entry hentry
        rcases List.mem_append.1 hentry with hfirst | hlater
        · rw [Option.mem_toList] at hfirst
          exact parseLine_logged (hline.trans (congrArg _ hfirst))
        · exact ih hrest entry hlater

theorem parse_logged {log : List UInt8} {entries : List GoldenEntry} (h : parse log = .ok entries) :
    ∀ entry ∈ entries, entry.Logged :=
  entriesFrom_logged h

/-- No log tells of a register that does not exist. -/
theorem parse_inRange {log : List UInt8} {entries : List GoldenEntry} (h : parse log = .ok entries) :
    ∀ entry ∈ entries, entry.InRange :=
  fun entry hentry => (parse_logged h entry hentry).inRange

end CommitLog

theorem LogFilter.apply_subset (filter : LogFilter) (entries : List GoldenEntry) :
    filter.apply entries ⊆ entries := by
  unfold apply
  have hkept : entries.filter filter.keeps ⊆ entries := List.filter_subset_self _
  dsimp only
  split
  · split
    · exact fun entry hentry => hkept (List.mem_of_mem_take hentry)
    · exact hkept
  · exact hkept

namespace TraceFile

theorem readLog_eq_ok {path : String} {files : FileTree} {entries : List GoldenEntry} :
    readLog path files = .ok entries ↔
      ∃ log, files.read path = .ok log ∧ CommitLog.parse log.toList = .ok entries := by
  unfold readLog
  rw [bind_eq_ok]
  simp only [mapError_eq_ok]

theorem writeGolden_eq_error {path : String} {entries : List GoldenEntry} {files : FileTree} {e : Error}
    (h : writeGolden path entries files = .error e) :
    ∃ fault, e = .file path fault ∧ ∀ bytes, files.write path bytes = .error fault := by
  unfold writeGolden write at h
  rw [FileTree.write_eq_map_target] at h
  cases htarget : files.target path with
  | ok place =>
    rw [htarget] at h
    cases h
  | error fault =>
    rw [htarget] at h
    cases h
    refine ⟨fault, rfl, fun bytes => ?_⟩
    rw [FileTree.write_eq_map_target, htarget]
    rfl

/-- A golden trace that was made of a log is read as it was written. -/
theorem readGolden_of_readLog {log path : String} {entries : List GoldenEntry}
    {files before after : FileTree} (filter : LogFilter) (hlog : readLog log files = .ok entries)
    (h : writeGolden path (filter.apply entries) before = .ok after) :
    readGolden path after = .ok (filter.apply entries) := by
  obtain ⟨_, -, hparse⟩ := readLog_eq_ok.1 hlog
  have hinRange : ∀ entry ∈ filter.apply entries, entry.InRange := fun entry hentry =>
    CommitLog.parse_inRange hparse entry (filter.apply_subset entries hentry)
  rw [readGolden_of_write h, GoldenEntry.mapM_check_of_inRange hinRange]
  rfl

end TraceFile

/-! ## Traces that are made of logs -/

section Making

variable {s s' : Session}

theorem CommandLine.parseLog_eq_ok {input output : String} {settings : Settings} {answer : Answer}
    (h : parseLog input output settings s = .ok answer s') :
    ∃ entries, TraceFile.readLog input s.files = .ok entries ∧
      TraceFile.readGolden output s'.files = .ok (settings.golden.apply entries) := by
  obtain ⟨entries, hlog, h⟩ := Action.ask_bind_eq_ok.1 h
  obtain ⟨_, _, hwrite, h⟩ := Action.bind_eq_ok.1 h
  cases h
  exact ⟨entries, hlog,
    TraceFile.readGolden_of_readLog settings.golden hlog (Action.files_of_change hwrite)⟩

namespace Simulator

theorem slash_not_mem_stem (path : String) : '/' ∉ (stem path).toList := by
  unfold stem Path.stem?
  cases hname : Path.fileName? path with
  | none => decide
  | some name =>
    have slashless := Path.slash_not_mem_steps (Path.mem_steps_of_fileName? hname)
    change '/' ∉ (Path.splitExtension name).1.toList
    unfold Path.splitExtension
    dsimp only
    split
    · next front rest hfront =>
      rw [String.toList_ofList]
      intro hslash
      apply slashless
      rw [← List.mem_reverse]
      apply (List.dropWhile_suffix (· != '.')).subset
      rw [hfront]
      exact List.mem_cons_of_mem _ (List.mem_reverse.1 hslash)
    · exact slashless

/-- The log of a program. -/
def logPath (directory elf : String) : String :=
  Path.join directory (stem elf ++ TraceFile.logSuffix)

theorem lastStep?_logPath (directory elf : String) :
    Path.lastStep? (logPath directory elf) = some (stem elf ++ TraceFile.logSuffix) := by
  apply Path.lastStep?_join
  · rw [String.toList_append, List.mem_append]
    exact not_or.2 ⟨slash_not_mem_stem elf, by decide⟩
  · intro hempty
    have hnil := congrArg String.toList hempty
    rw [String.toList_append] at hnil
    exact absurd (List.append_eq_nil_iff.1 hnil).2 (by decide)

theorem logName_ne {name : String} (elf : String)
    (h : ¬ TraceFile.logSuffix.toList <:+ name.toList) : stem elf ++ TraceFile.logSuffix ≠ name := by
  rintro rfl
  exact h (suffix_append ..)

/-- A golden trace that is written replaces no log. -/
theorem read_logPath_of_write {directory elf program : String} {entries : List GoldenEntry}
    {log : ByteArray} {before after : FileTree} (slashless : '/' ∉ program.toList)
    (hwrite : TraceFile.writeGolden (Path.join directory (program ++ TraceFile.goldenSuffix)) entries
      before = .ok after)
    (hread : before.read (logPath directory elf) = .ok log) :
    after.read (logPath directory elf) = .ok log := by
  have hgrows := TraceFile.write_grows slashless (by decide) hwrite
  have hdot := logName_ne elf (show ¬ TraceFile.logSuffix.toList <:+ ".".toList by decide)
  have hdots := logName_ne elf (show ¬ TraceFile.logSuffix.toList <:+ "..".toList by decide)
  refine hgrows.read (lastStep?_logPath directory elf) hdot hdots (logName_ne elf fun hlog => ?_) hread
  rcases List.suffix_or_suffix_of_suffix hlog (suffix_append program TraceFile.goldenSuffix) with
    hsuffix | hsuffix
  · exact absurd hsuffix (by decide)
  · exact absurd hsuffix (by decide)

theorem runOn_eq_ok {simulator : Simulator} {elf directory log : String} {options : SimulatorOptions}
    (h : simulator.runOn elf directory options s = .ok log s') :
    log = logPath directory elf ∧
      s'.files.read log = .ok (simulator.call options (arguments options elf)).output := by
  obtain ⟨_, _, -, h⟩ := Action.bind_eq_ok.1 h
  obtain ⟨_, _, -, h⟩ := Action.bind_eq_ok.1 h
  obtain ⟨_, _, -, h⟩ := Action.bind_eq_ok.1 h
  obtain ⟨_, _, hkeep, h⟩ := Action.bind_eq_ok.1 h
  obtain ⟨_, -, h⟩ := Action.ask_bind_eq_ok.1 h
  obtain ⟨hlog, hsession⟩ := EStateM.Result.ok.inj h
  have hfiles := mapError_eq_ok.1 (Action.files_of_change hkeep)
  rw [hlog, hsession] at hfiles
  exact ⟨hlog.symm, FileTree.read_of_write hfiles⟩

theorem generate_eq_ok {simulator : Simulator} {elf directory path : String}
    {options : SimulatorOptions} {filter : LogFilter}
    (h : simulator.generate elf directory options filter s = .ok path s') :
    ∃ entries,
      CommitLog.parse (simulator.call options (arguments options elf)).output.toList = .ok entries ∧
      TraceFile.readLog (logPath directory elf) s'.files = .ok entries ∧
      TraceFile.readGolden path s'.files = .ok (filter.apply entries) := by
  obtain ⟨log, kept, hrun, h⟩ := Action.bind_eq_ok.1 h
  obtain ⟨entries, hlog, h⟩ := Action.ask_bind_eq_ok.1 h
  obtain ⟨_, _, hwrite, h⟩ := Action.bind_eq_ok.1 h
  obtain ⟨_, _, htell, h⟩ := Action.bind_eq_ok.1 h
  obtain ⟨hpath, rfl⟩ := EStateM.Result.ok.inj h
  cases htell
  obtain ⟨rfl, hkept⟩ := runOn_eq_ok hrun
  have hwritten := Action.files_of_change hwrite
  obtain ⟨output, hread, hparse⟩ := TraceFile.readLog_eq_ok.1 hlog
  obtain rfl := Except.ok.inj (hkept.symm.trans hread)
  have hstays := read_logPath_of_write (slash_not_mem_stem _) hwritten hkept
  refine ⟨entries, hparse, TraceFile.readLog_eq_ok.2 ⟨_, hstays, hparse⟩, ?_⟩
  rw [← hpath]
  exact TraceFile.readGolden_of_readLog filter hlog hwritten

end Simulator

end Making

/-- A golden trace is read as it was written, unless one of its entries names a register that does not
exist: then it is malformed. No log makes such an entry, so what is made of a log is always read as it
was written. Whether a trace can be written at all is not up to its entries. -/
theorem golden_files_round_trip :
    (∀ path entries files after, TraceFile.writeGolden path entries files = .ok after →
      ((∀ entry ∈ entries, entry.InRange) → TraceFile.readGolden path after = .ok entries) ∧
      ((¬ ∀ entry ∈ entries, entry.InRange) →
        ∃ entry ∈ entries, ∃ reg ∈ entry.targetReg, 31 < reg.toNat ∧
          TraceFile.readGolden path after = .error (.malformedTrace path
            (.rejected s!"register index {reg} out of range (0..{registerCount})")))) ∧
    (∀ path entries files e, TraceFile.writeGolden path entries files = .error e →
      ∃ fault, e = .file path fault ∧ ∀ bytes, files.write path bytes = .error fault) ∧
    (∀ log path settings (s s' : Session) answer,
      CommandLine.parseLog log path settings s = .ok answer s' →
        ∃ entries, TraceFile.readLog log s.files = .ok entries ∧
          TraceFile.readGolden path s'.files = .ok (settings.golden.apply entries)) ∧
    (∀ (simulator : Simulator) elf directory options filter (s s' : Session) path,
      simulator.generate elf directory options filter s = .ok path s' →
        ∃ entries,
          CommitLog.parse (simulator.call options (Simulator.arguments options elf)).output.toList =
            .ok entries ∧
          TraceFile.readLog (Simulator.logPath directory elf) s'.files = .ok entries ∧
          TraceFile.readGolden path s'.files = .ok (filter.apply entries)) := by
  refine ⟨fun path entries files after h => ?_, fun path entries files e h => ?_,
    fun log path settings s s' answer h => CommandLine.parseLog_eq_ok h,
    fun simulator elf directory options filter s s' path h => Simulator.generate_eq_ok h⟩
  · rw [TraceFile.readGolden_of_write h]
    constructor
    · intro hinRange
      rw [GoldenEntry.mapM_check_of_inRange hinRange]
      rfl
    · intro hout
      obtain ⟨entry, hentry, reg, hreg, hlt, hcheck⟩ := GoldenEntry.exists_refused hout
      refine ⟨entry, hentry, reg, hreg, hlt, ?_⟩
      rw [hcheck]
      rfl
  · exact TraceFile.writeGolden_eq_error h

/-- A log of two commits, the first of which is boot code. -/
def bootedLog : ByteArray :=
  ("core   0: 3 0x00001000 (0x00000297) x5  0x00001000\n" ++
    "core   0: 3 0x00003004 (0x00500593) x11 0x00000005\n").toUTF8

/-- The golden entry of its first commit. -/
def bootEntry : GoldenEntry where
  pc := 0x1000
  instr := 0x00000297
  targetReg := some 5
  regVal := some 0x1000

/-- The golden entry of its second commit. -/
def programEntry : GoldenEntry where
  pc := 0x3004
  instr := 0x00500593
  targetReg := some 11
  regVal := some 5

/-- The log is in the working directory. -/
def keptLog : Session where
  files := FileTree.empty.insert ["a.log"] (.file bootedLog)

/-- Whatever the program is, the simulator writes the same log. -/
def bootedSimulator : Simulator := ⟨"spike", fun _ => ⟨bootedLog, .exited 0⟩⟩

theorem golden_files_round_trip_of_booted :
    (∃ after, TraceFile.writeGolden "t" [programEntry] keptLog.files = .ok after ∧
      TraceFile.readGolden "t" after = .ok [programEntry]) ∧
    (∃ after e, TraceFile.writeGolden "t" [{ programEntry with targetReg := some 32 }] keptLog.files =
        .ok after ∧
      TraceFile.readGolden "t" after = .error (.malformedTrace "t" e)) ∧
    (∃ answer s', CommandLine.parseLog "a.log" "t" {} keptLog = .ok answer s' ∧
      TraceFile.readGolden "t" s'.files = .ok [programEntry]) ∧
    ∃ s', bootedSimulator.generate "a.elf" "" {} {} keptLog = .ok "a.spike.json" s' ∧
      TraceFile.readGolden "a.spike.json" s'.files = .ok [programEntry] := by
  obtain ⟨hwritten, hrefused, hparseLog, hgenerate⟩ := golden_files_round_trip
  have hwrite (entries : List GoldenEntry) :
      ∃ after, TraceFile.writeGolden "t" entries keptLog.files = .ok after := by
    cases h : TraceFile.writeGolden "t" entries keptLog.files with
    | ok after => exact ⟨after, rfl⟩
    | error e =>
      obtain ⟨fault, -, hfault⟩ := hrefused _ _ _ _ h
      have hempty : (keptLog.files.write "t" .empty).isOk = true := by decide +kernel
      rw [hfault .empty] at hempty
      cases hempty
  have hfilter : ({} : LogFilter).apply [bootEntry, programEntry] = [programEntry] := by decide
  refine ⟨?_, ?_, ?_, ?_⟩
  · obtain ⟨after, h⟩ := hwrite [programEntry]
    exact ⟨after, h, (hwritten _ _ _ _ h).1 (List.forall_mem_singleton.2 (by decide))⟩
  · obtain ⟨after, h⟩ := hwrite [{ programEntry with targetReg := some 32 }]
    have hout : ¬ GoldenEntry.InRange { programEntry with targetReg := some 32 } := by decide
    obtain ⟨-, -, reg, -, -, hread⟩ :=
      (hwritten _ _ _ _ h).2 fun hall => hout (hall _ List.mem_cons_self)
    exact ⟨after, _, h, hread⟩
  · have hlog : TraceFile.readLog "a.log" keptLog.files = .ok [bootEntry, programEntry] := by
      decide +kernel
    have hanswer : Action.outcome (CommandLine.parseLog "a.log" "t" {} keptLog) =
        .ok ⟨true, [.success "Wrote 1 golden entries", .written "t"]⟩ := by
      decide +kernel
    obtain ⟨s', h⟩ := Action.outcome_eq_ok.1 hanswer
    obtain ⟨entries, hentries, hread⟩ := hparseLog _ _ _ _ _ _ h
    obtain rfl := Except.ok.inj (hlog.symm.trans hentries)
    exact ⟨_, s', h, hfilter ▸ hread⟩
  · have hparse : CommitLog.parse bootedLog.toList = .ok [bootEntry, programEntry] := by
      decide +kernel
    have hpath : Action.outcome (bootedSimulator.generate "a.elf" "" {} {} keptLog) =
        .ok "a.spike.json" := by
      decide +kernel
    obtain ⟨s', h⟩ := Action.outcome_eq_ok.1 hpath
    obtain ⟨entries, hentries, -, hread⟩ := hgenerate _ _ _ _ _ _ _ _ h
    obtain rfl := Except.ok.inj (hparse.symm.trans hentries)
    exact ⟨s', h, hfilter ▸ hread⟩

end Lockstep
