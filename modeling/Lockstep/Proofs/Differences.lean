import Lockstep.Proofs.Comparison
import Mathlib.Data.List.Sort
import Mathlib.Order.WellFounded

/-!
# What a comparison finds

`compareFrom` is a walk along two lists, and `Record.firstDifference?` a row of tests that comes to its last
answer by elimination. Here both are described without a word about how they proceed:

* two records **differ first** in a field if they agree in all fields before it (`Record.FirstDiffers`), and
  `Field.kind` says what such a difference is called;
* a list of mismatches **is the comparison** of a golden trace with retired entries if it has the right
  elements in the right order (`IsComparison`). There is one such list, and it is the one that is computed
  (`compareTraces_exact`).

What the description does not mention plays no part in the result: speculative entries, marks of supplied
commits, retired entries behind the end of the golden trace, and addresses that a device does not show.
-/

namespace Lockstep

/-- A field of a record. -/
inductive Field where
  | pc
  | instr
  | targetReg
  | regVal
  | memAddr
  | memVal
  deriving DecidableEq, Repr

/-- The fields in the order in which they are looked at. -/
def Field.order : List Field := [.pc, .instr, .targetReg, .regVal, .memAddr, .memVal]

/-- The place of a field in that order. -/
def Field.rank (field : Field) : Nat := order.idxOf field

/-- What a difference in a place is called. One that only one of the two sides has is missing or extra. -/
def placeKind {α : Type} (missing extra differs : MismatchKind) :
    (golden device : Option α) → MismatchKind
  | some _, none => missing
  | none, some _ => extra
  | _, _ => differs

/-- What a difference in a field is called. -/
def Field.kind (golden device : Record) : Field → MismatchKind
  | .pc => .pc
  | .instr => .instr
  | .targetReg =>
    placeKind .missingRegWrite .extraRegWrite .regDest golden.targetReg device.targetReg
  | .regVal => .regValue
  | .memAddr => placeKind .missingMemWrite .extraMemWrite .memAddr golden.memAddr device.memAddr
  | .memVal => .memValue

namespace Record

/-- Two records have the same in a field. -/
def AgreeIn (golden device : Record) : Field → Prop
  | .pc => golden.pc = device.pc
  | .instr => golden.instr = device.instr
  | .targetReg => golden.targetReg = device.targetReg
  | .regVal => golden.regVal = device.regVal
  | .memAddr => golden.memAddr = device.memAddr
  | .memVal => golden.memVal = device.memVal

/-- The field is the first one in which two records differ. -/
structure FirstDiffers (golden device : Record) (field : Field) : Prop where
  differs : ¬ golden.AgreeIn device field
  earlier : ∀ other : Field, other.rank < field.rank → golden.AgreeIn device other

/-! ## The first difference of two records -/

variable {golden device : Record} {field : Field}

theorem eq_of_agreeIn (h : ∀ field, golden.AgreeIn device field) : golden = device := by
  have hpc : golden.pc = device.pc := h .pc
  have hinstr : golden.instr = device.instr := h .instr
  have hreg : golden.targetReg = device.targetReg := h .targetReg
  have hval : golden.regVal = device.regVal := h .regVal
  have haddr : golden.memAddr = device.memAddr := h .memAddr
  have hmem : golden.memVal = device.memVal := h .memVal
  obtain ⟨⟨_, _, _, _⟩, _, _⟩ := golden
  simp_all

theorem exists_firstDiffers_iff : (∃ field, golden.FirstDiffers device field) ↔ golden ≠ device := by
  constructor
  · rintro ⟨field, h⟩ rfl
    apply h.differs
    cases field <;> rfl
  · intro hne
    have hdiffers : ∃ field, ¬ golden.AgreeIn device field := by
      by_contra hall
      exact hne (eq_of_agreeIn fun field => by_contra fun h => hall ⟨field, h⟩)
    -- Of the fields in which they differ, one has the least rank.
    obtain ⟨field, hfield, hleast⟩ :=
      (measure Field.rank).wf.has_min {field | ¬ golden.AgreeIn device field} hdiffers
    exact ⟨field, hfield, fun other hlt => by_contra fun h => hleast other h hlt⟩

theorem FirstDiffers.unique {other : Field} (h : golden.FirstDiffers device field)
    (ho : golden.FirstDiffers device other) : field = other := by
  have hle : other.rank ≤ field.rank := Nat.le_of_not_lt fun hlt => h.differs (ho.earlier field hlt)
  have hge : field.rank ≤ other.rank := Nat.le_of_not_lt fun hlt => ho.differs (h.earlier other hlt)
  have hrank := Nat.le_antisymm hge hle
  revert hrank
  cases field <;> cases other <;> decide

theorem placeDifference?_of_ne {α : Type} [DecidableEq α] {missing extra differs : MismatchKind}
    {golden device : Option α} (h : golden ≠ device) :
    placeDifference? missing extra differs golden device =
      some (placeKind missing extra differs golden device) := by
  cases golden with
  | none =>
      cases device with
      | none => exact absurd rfl h
      | some d => rfl
  | some g =>
      cases device with
      | none => rfl
      | some d =>
          have hne : g ≠ d := fun he => h (congrArg some he)
          simp [placeDifference?, placeKind, hne]

theorem placeDifference?_self {α : Type} [DecidableEq α] (missing extra differs : MismatchKind)
    (place : Option α) : placeDifference? missing extra differs place place = none := by
  cases place with
  | none => rfl
  | some x => simp [placeDifference?]

/-- The tests come to the first difference. -/
theorem FirstDiffers.firstDifference?_eq (h : golden.FirstDiffers device field)
    (hdevice : device ≠ Record.empty) :
    golden.firstDifference? device = some (field.kind golden device) := by
  have hne : golden ≠ device := exists_firstDiffers_iff.1 ⟨field, h⟩
  have hpc : 0 < field.rank → golden.pc = device.pc := h.earlier .pc
  have hinstr : 1 < field.rank → golden.instr = device.instr := h.earlier .instr
  have hreg : 2 < field.rank → golden.targetReg = device.targetReg := h.earlier .targetReg
  have hval : 3 < field.rank → golden.regVal = device.regVal := h.earlier .regVal
  have haddr : 4 < field.rank → golden.memAddr = device.memAddr := h.earlier .memAddr
  unfold firstDifference?
  rw [if_neg hne, if_neg hdevice]
  cases field with
  | pc =>
      have hdiffers : golden.pc ≠ device.pc := h.differs
      simp [hdiffers, Field.kind]
  | instr =>
      have hdiffers : golden.instr ≠ device.instr := h.differs
      simp [hpc (by decide), hdiffers, Field.kind]
  | targetReg =>
      have hdiffers : golden.targetReg ≠ device.targetReg := h.differs
      simp [hpc (by decide), hinstr (by decide), placeDifference?_of_ne hdiffers, Field.kind]
  | regVal =>
      have hdiffers : golden.regVal ≠ device.regVal := h.differs
      simp [hpc (by decide), hinstr (by decide), hreg (by decide), placeDifference?_self, hdiffers,
        Field.kind]
  | memAddr =>
      have hdiffers : golden.memAddr ≠ device.memAddr := h.differs
      simp [hpc (by decide), hinstr (by decide), hreg (by decide), hval (by decide),
        placeDifference?_self, placeDifference?_of_ne hdiffers, Field.kind]
  | memVal =>
      -- The values are what is left, and no test is made of them.
      simp [hpc (by decide), hinstr (by decide), hreg (by decide), hval (by decide),
        haddr (by decide), placeDifference?_self, Field.kind]

end Record

/-! ## The comparison of two traces -/

/-- The mismatch of two records at a place, the first difference of which is in the field. -/
def Mismatch.ofField (index : Nat) (golden device : Record) (field : Field) : Mismatch :=
  { index, kind := field.kind golden device, golden, device }

/-- The mismatch of a golden record at a place where no retired entry is left. -/
def Mismatch.truncation (index : Nat) (golden : Record) : Mismatch :=
  { index, kind := .truncated, golden, device := .empty }

/-- The mismatches are what a comparison of a golden trace with retired entries is to find. -/
structure IsComparison (settings : Settings) (golden : List GoldenEntry)
    (retired : List ReconciledEntry) (mismatches : List Mismatch) : Prop where
  ascending : mismatches.Pairwise (·.index < ·.index)
  /-- Where both sides have an entry, there is a mismatch exactly if they differ. -/
  differs : ∀ {i expected device}, golden[i]? = some expected → retired[i]? = some device →
    ((∃ m ∈ mismatches, m.index = i) ↔ expected.normalized settings ≠ device.record)
  /-- Such a mismatch shows both sides and tells of the first field in which they differ. -/
  shows : ∀ {i expected device}, golden[i]? = some expected → retired[i]? = some device →
    ∀ m ∈ mismatches, m.index = i →
      m.golden = expected.normalized settings ∧ m.device = device.record ∧ m.kind ≠ .truncated ∧
        ∃ field, m.golden.FirstDiffers m.device field ∧ m.kind = field.kind m.golden m.device
  /-- There is no other mismatch, but for that of the first golden entry without a retired one. -/
  truncated : ∀ m, m ∈ mismatches ∧ min golden.length retired.length ≤ m.index ↔
    ∃ expected, golden[retired.length]? = some expected ∧
      m = .truncation retired.length (expected.normalized settings)

variable {settings : Settings} {golden : List GoldenEntry} {retired : List ReconciledEntry}

theorem mem_pairMismatches_iff {index : Nat} {expected : GoldenEntry} {device : ReconciledEntry}
    {m : Mismatch} :
    m ∈ pairMismatches settings index expected device ↔
      ∃ field, (expected.normalized settings).FirstDiffers device.record field ∧
        m = .ofField index (expected.normalized settings) device.record field := by
  unfold pairMismatches
  rw [List.mem_map]
  constructor
  · rintro ⟨kind, hkind, rfl⟩
    have hsome := Option.mem_toList.1 hkind
    have hne : expected.normalized settings ≠ device.record := by
      intro heq
      rw [(Record.firstDifference?_eq_none_iff _ _).2 heq] at hsome
      cases hsome
    obtain ⟨field, hfirst⟩ := Record.exists_firstDiffers_iff.2 hne
    have heq := hfirst.firstDifference?_eq device.record_ne_empty
    obtain rfl : field.kind _ _ = kind := Option.some.inj (heq.symm.trans hsome)
    exact ⟨field, hfirst, rfl⟩
  · rintro ⟨field, hfirst, rfl⟩
    exact ⟨_, Option.mem_toList.2 (hfirst.firstDifference?_eq device.record_ne_empty), rfl⟩

/-- **The mismatches of a walk**: those of its pairs, and the one where it finds no retired entry. -/
theorem mem_compareFrom_iff {index : Nat} {m : Mismatch} :
    m ∈ compareFrom settings index golden retired ↔
      (∃ i expected device, golden[i]? = some expected ∧ retired[i]? = some device ∧
        m ∈ pairMismatches settings (index + i) expected device) ∨
      ∃ expected, golden[retired.length]? = some expected ∧
        m = .truncation (index + retired.length) (expected.normalized settings) := by
  induction golden generalizing index retired with
  | nil => simp [compareFrom]
  | cons entry rest ih =>
      cases retired with
      | nil => simp [compareFrom, Mismatch.truncation]
      | cons device retired =>
          rw [compareFrom_cons_cons, List.mem_append, ih]
          simp only [List.length_cons, List.getElem?_cons_succ, Nat.add_assoc, Nat.add_comm 1]
          rw [← or_assoc]
          refine or_congr_left ?_
          constructor
          · rintro (hm | ⟨i, expected, found, he, hf, hm⟩)
            · exact ⟨0, entry, device, rfl, rfl, hm⟩
            · exact ⟨i + 1, expected, found, he, hf, hm⟩
          · rintro ⟨i, expected, found, he, hf, hm⟩
            cases i with
            | zero =>
                obtain rfl : entry = expected := Option.some.inj he
                obtain rfl : device = found := Option.some.inj hf
                exact .inl hm
            | succ i => exact .inr ⟨i, expected, found, he, hf, hm⟩

theorem pairwise_compareFrom (settings : Settings) (index : Nat) (golden : List GoldenEntry)
    (retired : List ReconciledEntry) :
    (compareFrom settings index golden retired).Pairwise (·.index < ·.index) := by
  induction golden generalizing index retired with
  | nil => exact .nil
  | cons entry rest ih =>
      cases retired with
      | nil => exact List.pairwise_singleton _ _
      | cons device retired =>
          rw [compareFrom_cons_cons, List.pairwise_append]
          refine ⟨?_, ih _ _, ?_⟩
          · unfold pairMismatches
            cases (entry.normalized settings).firstDifference? device.record with
            | none => exact .nil
            | some kind => exact List.pairwise_singleton _ _
          · -- The mismatch of the first pair comes before those of the later ones.
            intro m hm later hlater
            obtain ⟨field, -, rfl⟩ := mem_pairMismatches_iff.1 hm
            rcases mem_compareFrom_iff.1 hlater with ⟨i, expected, found, -, -, hp⟩ | ⟨expected, -, rfl⟩
            · obtain ⟨field, -, rfl⟩ := mem_pairMismatches_iff.1 hp
              show index < index + 1 + i
              omega
            · show index < index + 1 + retired.length
              omega

/-- The mismatch of a place where both sides have an entry is that of the pair. -/
theorem mem_pairMismatches_of_mem {i : Nat} {expected : GoldenEntry} {device : ReconciledEntry}
    (he : golden[i]? = some expected) (hd : retired[i]? = some device) {m : Mismatch}
    (hm : m ∈ compareFrom settings 0 golden retired) (hi : m.index = i) :
    m ∈ pairMismatches settings i expected device := by
  rcases mem_compareFrom_iff.1 hm with ⟨j, expected', device', he', hd', hp⟩ | ⟨_, -, rfl⟩
  · obtain ⟨field, -, rfl⟩ := mem_pairMismatches_iff.1 hp
    obtain rfl : j = i := (Nat.zero_add j).symm.trans hi
    obtain rfl := Option.some.inj (he'.symm.trans he)
    obtain rfl := Option.some.inj (hd'.symm.trans hd)
    rwa [Nat.zero_add] at hp ⊢
  · -- The place of a truncation is behind the retired entries.
    obtain ⟨hlt, -⟩ := List.getElem?_eq_some_iff.1 hd
    have hlength : 0 + retired.length = i := hi
    omega

theorem isComparison_compareFrom (settings : Settings) (golden : List GoldenEntry)
    (retired : List ReconciledEntry) :
    IsComparison settings golden retired (compareFrom settings 0 golden retired) where
  ascending := pairwise_compareFrom settings 0 golden retired
  differs := by
    intro i expected device he hd
    constructor
    · rintro ⟨m, hm, hi⟩
      obtain ⟨field, hfirst, -⟩ := mem_pairMismatches_iff.1 (mem_pairMismatches_of_mem he hd hm hi)
      exact Record.exists_firstDiffers_iff.1 ⟨field, hfirst⟩
    · intro hne
      obtain ⟨field, hfirst⟩ := Record.exists_firstDiffers_iff.2 hne
      have hm : Mismatch.ofField (0 + i) (expected.normalized settings) device.record field ∈
          compareFrom settings 0 golden retired :=
        mem_compareFrom_iff.2
          (.inl ⟨i, expected, device, he, hd, mem_pairMismatches_iff.2 ⟨field, hfirst, rfl⟩⟩)
      exact ⟨_, hm, Nat.zero_add i⟩
  shows := by
    intro i expected device he hd m hm hi
    have hp := mem_pairMismatches_of_mem he hd hm hi
    have hkind := ne_truncated_of_mem_pairMismatches hp
    obtain ⟨field, hfirst, rfl⟩ := mem_pairMismatches_iff.1 hp
    exact ⟨rfl, rfl, hkind, field, hfirst, rfl⟩
  truncated := by
    intro m
    constructor
    · rintro ⟨hm, hle⟩
      rcases mem_compareFrom_iff.1 hm with ⟨i, expected, device, he, hd, hp⟩ | ⟨expected, he, rfl⟩
      · obtain ⟨field, -, rfl⟩ := mem_pairMismatches_iff.1 hp
        obtain ⟨hgolden, -⟩ := List.getElem?_eq_some_iff.1 he
        obtain ⟨hretired, -⟩ := List.getElem?_eq_some_iff.1 hd
        have hindex : min golden.length retired.length ≤ 0 + i := hle
        omega
      · rw [Nat.zero_add]
        exact ⟨expected, he, rfl⟩
    · rintro ⟨expected, he, rfl⟩
      refine ⟨mem_compareFrom_iff.2 (.inr ⟨expected, he, ?_⟩), Nat.min_le_right _ _⟩
      rw [Nat.zero_add]

namespace IsComparison

variable {mismatches others : List Mismatch}

theorem subset (h : IsComparison settings golden retired mismatches)
    (ho : IsComparison settings golden retired others) {m : Mismatch} (hm : m ∈ mismatches) :
    m ∈ others := by
  by_cases hle : min golden.length retired.length ≤ m.index
  · exact ((ho.truncated m).2 ((h.truncated m).1 ⟨hm, hle⟩)).1
  · have he : golden[m.index]? = some golden[m.index] := List.getElem?_eq_getElem (by omega)
    have hd : retired[m.index]? = some retired[m.index] := List.getElem?_eq_getElem (by omega)
    obtain ⟨other, hother, hi⟩ := (ho.differs he hd).2 ((h.differs he hd).1 ⟨m, hm, rfl⟩)
    obtain ⟨hgolden, hdevice, -, field, hfirst, hkind⟩ := h.shows he hd m hm rfl
    obtain ⟨hgolden', hdevice', -, field', hfirst', hkind'⟩ := ho.shows he hd other hother hi
    rw [hgolden, hdevice] at hfirst hkind
    rw [hgolden', hdevice'] at hfirst' hkind'
    obtain rfl := hfirst.unique hfirst'
    obtain rfl : m = other := by
      cases m
      cases other
      simp_all
    exact hother

/-- There is one comparison only. -/
theorem unique (h : IsComparison settings golden retired mismatches)
    (ho : IsComparison settings golden retired others) : mismatches = others := by
  have : Std.Irrefl fun a b : Mismatch => a.index < b.index := ⟨fun m => Nat.lt_irrefl m.index⟩
  have : Std.Antisymm fun a b : Mismatch => a.index < b.index :=
    ⟨fun a b hlt hgt => absurd hlt (Nat.lt_asymm hgt)⟩
  exact h.ascending.eq_of_mem_iff ho.ascending fun m => ⟨h.subset ho, ho.subset h⟩

end IsComparison

/-! ## What plays no part in a comparison -/

/-- The entry without the mark of a supplied commit. -/
def ReconciledEntry.unmarked (entry : ReconciledEntry) : ReconciledEntry :=
  { entry with speculativeCommit := false }

/-- The entry without an address that no device shows: that of a load, or one where nothing is written. -/
def GoldenEntry.shown (entry : GoldenEntry) : GoldenEntry :=
  if entry.instr.isLoad = true ∨ entry.memVal = none then { entry with memAddr := none } else entry

theorem GoldenEntry.normalized_shown (settings : Settings) (entry : GoldenEntry) :
    entry.shown.normalized settings = entry.normalized settings := by
  unfold shown
  split
  · next h =>
      have hseen : (if entry.instr.isLoad || entry.isMemoryRead then none else entry.memAddr) = none := by
        rcases h with hload | hnone
        · simp [hload]
        · unfold isMemoryRead
          rw [hnone]
          cases entry.memAddr <;> simp
      unfold normalized
      simp only [record, Record.of, hseen]
      simp [isMemoryRead]
  · rfl

/-- A comparison sees the normalized golden records, and as many retired records. -/
theorem compareFrom_congr {index : Nat} {golden golden' : List GoldenEntry}
    {retired retired' : List ReconciledEntry}
    (hgolden : golden.map (·.normalized settings) = golden'.map (·.normalized settings))
    (hretired : (retired.take golden.length).map (·.record) =
      (retired'.take golden.length).map (·.record)) :
    compareFrom settings index golden retired = compareFrom settings index golden' retired' := by
  induction golden generalizing index golden' retired retired' with
  | nil =>
      obtain rfl : golden' = [] := List.map_eq_nil_iff.1 hgolden.symm
      rfl
  | cons entry rest ih =>
      obtain ⟨entry', rest', rfl, hentry, hrest⟩ := List.map_eq_cons_iff.1 hgolden.symm
      cases retired with
      | nil =>
          obtain rfl : retired' = [] := by simpa using hretired.symm
          simp [compareFrom, hentry]
      | cons device retired =>
          cases retired' with
          | nil => simp at hretired
          | cons device' retired' =>
              simp only [List.length_cons, List.take_succ_cons, List.map_cons, List.cons.injEq]
                at hretired
              rw [compareFrom_cons_cons, compareFrom_cons_cons, ih hrest.symm hretired.2]
              unfold pairMismatches
              rw [hentry, hretired.1]

theorem compareTraces_congr {settings : Settings} {golden golden' : List GoldenEntry}
    {entries entries' : List ReconciledEntry}
    (hgolden : golden.map (·.normalized settings) = golden'.map (·.normalized settings))
    (hretired : ((retiredEntries entries).take golden.length).map (·.record) =
      ((retiredEntries entries').take golden.length).map (·.record)) :
    compareTraces golden entries settings = compareTraces golden' entries' settings :=
  compareFrom_congr hgolden hretired

theorem map_record_retiredEntries (entries : List ReconciledEntry) :
    (retiredEntries entries).map (·.record) =
      ((entries.map (·.unmarked)).filter (!·.speculativeFetch)).map (·.record) := by
  rw [List.filter_map, List.map_map]
  rfl

/-- **A comparison finds what it is to find**, all of it and nothing else, and it depends on nothing else:
not on speculative entries, wherever they are; not on marks of supplied commits; not on what retires behind
the end of the golden trace; and not on the address of a load or of an entry that writes no memory. -/
theorem compareTraces_exact (golden : List GoldenEntry) (entries : List ReconciledEntry)
    (settings : Settings) :
    (∀ mismatches, mismatches = compareTraces golden entries settings ↔
      IsComparison settings golden (retiredEntries entries) mismatches) ∧
    (∀ before extra after, entries = before ++ extra :: after → extra.speculativeFetch = true →
      compareTraces golden (before ++ after) settings = compareTraces golden entries settings) ∧
    (∀ before extra after, entries = before ++ after → extra.speculativeFetch = true →
      compareTraces golden (before ++ extra :: after) settings =
        compareTraces golden entries settings) ∧
    (∀ others : List ReconciledEntry, others.map (·.unmarked) = entries.map (·.unmarked) →
      compareTraces golden others settings = compareTraces golden entries settings) ∧
    (∀ others : List ReconciledEntry,
      (retiredEntries others).take golden.length = (retiredEntries entries).take golden.length →
      compareTraces golden others settings = compareTraces golden entries settings) ∧
    ∀ others : List GoldenEntry, others.map (·.shown) = golden.map (·.shown) →
      compareTraces others entries settings = compareTraces golden entries settings := by
  have hinsert : ∀ (before after : List ReconciledEntry) (extra : ReconciledEntry),
      extra.speculativeFetch = true →
        retiredEntries (before ++ extra :: after) = retiredEntries (before ++ after) := by
    intro before after extra hextra
    simp [retiredEntries, hextra]
  refine ⟨?_, ?_, ?_, ?_, ?_, ?_⟩
  · intro mismatches
    have hcompared := isComparison_compareFrom settings golden (retiredEntries entries)
    constructor
    · rintro rfl
      exact hcompared
    · exact fun h => h.unique hcompared
  · rintro before extra after rfl hextra
    apply compareTraces_congr rfl
    rw [hinsert before after extra hextra]
  · rintro before extra after rfl hextra
    apply compareTraces_congr rfl
    rw [hinsert before after extra hextra]
  · intro others hsame
    apply compareTraces_congr rfl
    rw [List.map_take, List.map_take, map_record_retiredEntries, map_record_retiredEntries, hsame]
  · intro others hsame
    apply compareTraces_congr rfl
    rw [hsame]
  · intro others hsame
    have hnormalized : ∀ trace : List GoldenEntry, trace.map (·.normalized settings) =
        (trace.map (·.shown)).map (·.normalized settings) := by
      intro trace
      rw [List.map_map]
      exact List.map_congr_left fun entry _ => (entry.normalized_shown settings).symm
    apply compareTraces_congr _ rfl
    rw [hnormalized others, hnormalized golden, hsame]

end Lockstep
