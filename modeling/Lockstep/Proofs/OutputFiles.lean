import Lockstep.Proofs.Effects
import Lockstep.Proofs.Written

/-!
# Reading output files back

What is kept of a verification tells what came of it. A reconciled trace is read by its own reader
(`ReconciledEntry.reader_takes`). No part of a run reads a list of mismatches, so a reader for it is given here
(`Mismatch.reader`): words are taken from their hexadecimal texts, and `null` is told apart from a word that is
zero. What is read back is what was written, so two verifications that are kept in the same text are the same.
-/

namespace Lockstep

open Json (Fault Reader)
open Json.Reader (TakesMembers)

/-! ## Reconciled entries -/

namespace ReconciledEntry

/-- What is known of an entry once all its members are read. -/
def known (entry : ReconciledEntry) : Known where
  pc := some entry.pc
  instr := some entry.instr
  targetReg := some entry.targetReg
  regVal := some entry.regVal
  memAddr := some entry.memAddr
  memVal := some entry.memVal
  speculativeFetch := some entry.speculativeFetch
  speculativeCommit := some entry.speculativeCommit

theorem takesMembers (entry : ReconciledEntry) :
    TakesMembers member {} (entry.toFetch.members ++ entry.toEffect.members ++
      [("speculative_fetch", .bool entry.speculativeFetch),
       ("speculative_commit", .bool entry.speculativeCommit)]) (.ok entry.known) := by
  have hword (value : Option UInt32) : Reader.word.orNull.Takes (Json.orNull .word value) (.ok value) :=
    Reader.orNull_takes Reader.word_takes value
  have hskips := Reader.word_skipsSpace
  refine .cons rfl (hskips.map _) ((Reader.word_takes entry.pc).map _) ?_
  refine .cons rfl (hskips.map _) ((Reader.word_takes entry.instr).map _) ?_
  refine .cons rfl (Reader.byte_skipsSpace.orNull.map _)
    ((Reader.orNull_takes Reader.byte_takes entry.targetReg).map _) ?_
  refine .cons rfl (hskips.orNull.map _) ((hword entry.regVal).map _) ?_
  refine .cons rfl (hskips.orNull.map _) ((hword entry.memAddr).map _) ?_
  refine .cons rfl (hskips.orNull.map _) ((hword entry.memVal).map _) ?_
  refine .cons rfl (Reader.truth_skipsSpace.map _)
    ((Reader.truth_takes entry.speculativeFetch).map _) ?_
  refine .cons rfl (Reader.truth_skipsSpace.map _)
    ((Reader.truth_takes entry.speculativeCommit).map _) ?_
  exact .nil _

theorem reader_skipsSpace : reader.SkipsSpace := by
  apply Reader.byNext_skipsSpace
  intro t
  split
  · exact (Reader.members_skipsSpace member {}).mapExcept _
  · exact (Reader.token_skipsSpace _).andThen _

theorem reader_takes (entry : ReconciledEntry) : reader.Takes entry.json (.ok entry) := by
  apply Reader.byNext_takes (Reader.startsWith_object _)
  exact (Reader.members_takes entry.takesMembers).mapExcept ofKnown

end ReconciledEntry

/-! ## Records -/

theorem Json.Reader.startsWith_hexWord (w : UInt32) :
    ∃ t, StartsWith (.string (Hex.word w)) t ∧ t ≠ .null :=
  ⟨_, startsWith_string _, nofun⟩

/-- Read a word from its hexadecimal text. -/
def Json.Reader.hexWord : Reader UInt32 :=
  .token fun
    | .string (some text) => .ok (UInt32.ofNat (Hex.ofDigits (text.toList.drop 2)))
    | _ => .error .malformed

theorem Json.Reader.hexWord_takes (w : UInt32) : hexWord.Takes (.string (Hex.word w)) (.ok w) := by
  intro level rest hrest
  have hdigits : (Hex.word w).toList.drop 2 = Hex.fixed 8 w.toNat := by
    simp [Hex.word]
  simp only [hexWord, token, next?_string, hdigits]
  rw [Hex.ofDigits_fixed w.toNat_lt, UInt32.ofNat_toNat, Except.map]

namespace Record

/-- How the value of a member is read. -/
def member (known : Record) (name : String) : Except Fault (Reader Record) :=
  let word := Reader.hexWord.orNull
  match name with
  | "pc" => .ok (word.map fun pc => { known with pc })
  | "instr" => .ok (word.map fun instr => { known with instr })
  | "target_reg" => .ok (Reader.byte.orNull.map fun targetReg => { known with targetReg })
  | "reg_val" => .ok (word.map fun regVal => { known with regVal })
  | "mem_addr" => .ok (word.map fun memAddr => { known with memAddr })
  | "mem_val" => .ok (word.map fun memVal => { known with memVal })
  | _ => .error .malformed

/-- Read a record with its words in hexadecimal. -/
def reader : Reader Record := Reader.members member .empty

theorem reader_takes (record : Record) : reader.Takes record.hexJson (.ok record) := by
  have hword (value : Option UInt32) : Reader.hexWord.orNull.Takes
      (Json.orNull (fun w => .string (Hex.word w)) value) (.ok value) :=
    Reader.orNull_takes_of_startsWith Reader.startsWith_hexWord Reader.hexWord_takes value
  have hskips : Reader.hexWord.orNull.SkipsSpace := (Reader.token_skipsSpace _).orNull
  apply Reader.members_takes
  refine .cons rfl (hskips.map _) ((hword record.pc).map _) ?_
  refine .cons rfl (hskips.map _) ((hword record.instr).map _) ?_
  refine .cons rfl (Reader.byte_skipsSpace.orNull.map _)
    ((Reader.orNull_takes Reader.byte_takes record.targetReg).map _) ?_
  refine .cons rfl (hskips.map _) ((hword record.regVal).map _) ?_
  refine .cons rfl (hskips.map _) ((hword record.memAddr).map _) ?_
  refine .cons rfl (hskips.map _) ((hword record.memVal).map _) ?_
  exact .nil _

theorem reader_skipsSpace : reader.SkipsSpace := Reader.members_skipsSpace member .empty

end Record

/-! ## Mismatches -/

/-- Read a number that is written as a natural number. -/
def Json.Reader.natural : Reader Nat :=
  .token fun
    | .number numeral =>
      match numeral.toNat? with
      | some n => .ok n
      | none => .error .malformed
    | _ => .error .malformed

theorem Json.Reader.natural_takes (n : Nat) : natural.Takes (.nat n) (.ok n) := by
  intro level rest hrest
  simp only [natural, token, next?_nat n level hrest, toNat?_toString]

namespace MismatchKind

theorem ofTag?_tag (kind : MismatchKind) : ofTag? kind.tag = some kind := by
  cases kind <;> decide

/-- Read a key word. -/
def reader : Reader MismatchKind :=
  .token fun
    | .string (some text) =>
      match ofTag? text with
      | some kind => .ok kind
      | none => .error .malformed
    | _ => .error .malformed

theorem reader_takes (kind : MismatchKind) : reader.Takes (.string kind.tag) (.ok kind) := by
  intro level rest hrest
  simp only [reader, Reader.token, Reader.next?_string, ofTag?_tag]

end MismatchKind

namespace Mismatch

/-- How the value of a member is read. -/
def member (known : Mismatch) (name : String) : Except Fault (Reader Mismatch) :=
  match name with
  | "index" => .ok (Reader.natural.map fun index => { known with index })
  | "kind" => .ok (MismatchKind.reader.map fun kind => { known with kind })
  | "golden" => .ok (Record.reader.map fun golden => { known with golden })
  | "dut" => .ok (Record.reader.map fun device => { known with device })
  | _ => .error .malformed

def reader : Reader Mismatch :=
  Reader.members member { index := 0, kind := .truncated, golden := .empty, device := .empty }

theorem reader_takes (m : Mismatch) : reader.Takes m.json (.ok m) := by
  apply Reader.members_takes
  refine .cons rfl ((Reader.token_skipsSpace _).map _) ((Reader.natural_takes m.index).map _) ?_
  refine .cons rfl ((Reader.token_skipsSpace _).map _) ((m.kind.reader_takes).map _) ?_
  refine .cons rfl (Record.reader_skipsSpace.map _) ((m.golden.reader_takes).map _) ?_
  refine .cons rfl (Record.reader_skipsSpace.map _) ((m.device.reader_takes).map _) ?_
  exact .nil _

theorem reader_skipsSpace : reader.SkipsSpace := Reader.members_skipsSpace member _

end Mismatch

/-! ## Files -/

namespace OutputFiles

/-- A written list is read back. -/
theorem readAll_written {α : Type} {reader : Reader α} {write : α → Json} (hskips : reader.SkipsSpace)
    (h : ∀ a, reader.Takes (write a) (.ok a)) (hstart : ∀ a, Reader.StartsWith (write a) .leftBrace)
    (as : List α) : (Reader.elements reader).readAll (Json.array (as.map write)).text.toList = .ok as := by
  have htakes := Reader.elements_takes hskips h (fun a => ⟨_, hstart a, nofun⟩) as
  have hall : as.mapM (fun a => (.ok a : Except Fault α)) = .ok as := by
    have hpure := List.mapM_pure (m := Except Fault) (f := id) (l := as)
    rw [List.map_id] at hpure
    exact hpure
  rw [Reader.readAll_of_takes htakes, hall]

theorem readAll_reconciledJson (entries : List ReconciledEntry) :
    (Reader.elements ReconciledEntry.reader).readAll (reconciledJson entries).text.toList = .ok entries :=
  readAll_written ReconciledEntry.reader_skipsSpace ReconciledEntry.reader_takes
    (fun _ => Reader.startsWith_object _) entries

theorem readAll_mismatchesJson (mismatches : List Mismatch) :
    (Reader.elements Mismatch.reader).readAll (mismatchesJson mismatches).text.toList = .ok mismatches :=
  readAll_written Mismatch.reader_skipsSpace Mismatch.reader_takes
    (fun _ => Reader.startsWith_object _) mismatches

theorem eq_of_reconciledJson {entries entries' : List ReconciledEntry}
    (h : (reconciledJson entries).text = (reconciledJson entries').text) : entries = entries' := by
  have hread := readAll_reconciledJson entries
  rw [h, readAll_reconciledJson] at hread
  exact (Except.ok.inj hread).symm

theorem eq_of_mismatchesJson {mismatches mismatches' : List Mismatch}
    (h : (mismatchesJson mismatches).text = (mismatchesJson mismatches').text) :
    mismatches = mismatches' := by
  have hread := readAll_mismatchesJson mismatches
  rw [h, readAll_mismatchesJson] at hread
  exact (Except.ok.inj hread).symm

end OutputFiles

/-- **What is kept of a verification tells all of it.** The two files hold the texts of the reconciled
trace and of the mismatches. Two traces with the same text are the same, with their flags, and so are two
lists of mismatches with the same text, and the reconciled trace is read back from its file. -/
theorem outputs_tell_all :
    (∀ directory name entries mismatches (s s' : Session) outputs,
      OutputFiles.write directory name entries mismatches s = .ok outputs s' →
        s'.files.readText outputs.reconciled = .ok (OutputFiles.reconciledJson entries).text ∧
        s'.files.readText outputs.mismatches = .ok (OutputFiles.mismatchesJson mismatches).text) ∧
    (∀ entries entries', (OutputFiles.reconciledJson entries).text =
      (OutputFiles.reconciledJson entries').text → entries = entries') ∧
    (∀ mismatches mismatches', (OutputFiles.mismatchesJson mismatches).text =
      (OutputFiles.mismatchesJson mismatches').text → mismatches = mismatches') ∧
    ∀ entries, (Reader.elements ReconciledEntry.reader).readAll
      (OutputFiles.reconciledJson entries).text.toList = .ok entries := by
  refine ⟨?_, fun _ _ => OutputFiles.eq_of_reconciledJson, fun _ _ => OutputFiles.eq_of_mismatchesJson,
    OutputFiles.readAll_reconciledJson⟩
  intro directory name entries mismatches s s' outputs h
  obtain ⟨rfl, hreconciled, hmismatches⟩ := OutputFiles.write_eq_ok h
  exact ⟨FileTree.readText_of_read hreconciled, FileTree.readText_of_read hmismatches⟩

/-- A retired write of zero to a register, which was not seen. -/
def clearedEntry : ReconciledEntry where
  pc := 0x10
  instr := 0x00000593
  targetReg := some 11
  regVal := some 0
  speculativeCommit := true

/-- The device wrote zero where nothing was expected. -/
def clearedMismatch : Mismatch where
  index := 3
  kind := .memValue
  golden := { clearedEntry.record with memAddr := some 0x20 }
  device := { clearedEntry.record with memAddr := some 0x20, memVal := some 0 }

theorem outputs_tell_all_of_cleared :
    (∃ outputs s', OutputFiles.write "out" "a/b" [clearedEntry] [clearedMismatch]
        { files := FileTree.empty.insert ["out"] .directory |>.insert ["out", "a"] .directory } =
          .ok outputs s' ∧
      s'.files.readText outputs.reconciled =
        .ok (OutputFiles.reconciledJson [clearedEntry]).text) ∧
    (OutputFiles.reconciledJson [clearedEntry]).text ≠
      (OutputFiles.reconciledJson [{ clearedEntry with regVal := none }]).text ∧
    (OutputFiles.mismatchesJson [clearedMismatch]).text ≠
      (OutputFiles.mismatchesJson [{ clearedMismatch with device := clearedMismatch.golden }]).text := by
  obtain ⟨hfiles, hentries, hmismatches, -⟩ := outputs_tell_all
  refine ⟨?_, fun h => absurd (hentries _ _ h) (by decide), fun h => absurd (hmismatches _ _ h) (by decide)⟩
  have houtcome : Action.outcome (OutputFiles.write "out" "a/b" [clearedEntry] [clearedMismatch]
      { files := FileTree.empty.insert ["out"] .directory |>.insert ["out", "a"] .directory }) =
        .ok (OutputFiles.within "out" "a/b") := by
    decide +kernel
  obtain ⟨s', h⟩ := Action.outcome_eq_ok.1 houtcome
  exact ⟨_, s', h, (hfiles _ _ _ _ _ _ _ h).1⟩

end Lockstep
