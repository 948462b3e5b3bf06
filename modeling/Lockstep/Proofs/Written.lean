import Lockstep.Proofs.Tokens
import Lockstep.TraceFile.Entries

/-!
# Reading what was written

`Reader.Takes` says what a reader comes to on a value as it is written, at whatever level and whatever follows
it. It is proved along the readers: for one token, for the elements of an array (`elements_takes`) and for the
members of an object (`members_takes`). A reader may refuse a written value, and then an array or an object
with that value is refused with the same fault, as what stands in front of it was read without one.

Values are written over several lines, so a reader has to pass over the white space in front of its value
(`Reader.SkipsSpace`).
-/

namespace Lockstep.Json

variable {α β σ : Type} {x : Json} {t : Token} {cs rest : List Char}

namespace Reader

/-! ## White space in front -/

/-- White space in front of a value changes nothing. -/
def SkipsSpace (reader : Reader α) : Prop :=
  ∀ c, isSpace c = true → ∀ cs, reader.read (c :: cs) = reader.read cs

theorem SkipsSpace.append {reader : Reader α} (h : reader.SkipsSpace) {blanks : List Char}
    (hblanks : ∀ c ∈ blanks, isSpace c = true) (cs : List Char) :
    reader.read (blanks ++ cs) = reader.read cs := by
  induction blanks with
  | nil => rfl
  | cons c blanks ih =>
    obtain ⟨hc, hblanks⟩ := List.forall_mem_cons.1 hblanks
    rw [List.cons_append, h c hc, ih hblanks]

theorem SkipsSpace.newline {reader : Reader α} (h : reader.SkipsSpace) (level : Nat)
    (cs : List Char) : reader.read (newline level ++ cs) = reader.read cs :=
  h.append (isSpace_of_mem_newline level) cs

theorem token_skipsSpace (value : Token → Except Fault α) : (token value).SkipsSpace := by
  intro c hc cs
  simp only [token, Token.next?_of_isSpace hc]

theorem SkipsSpace.andThen {first : Reader α} (h : first.SkipsSpace) (second : α → Reader β) :
    (first.andThen second).SkipsSpace := by
  intro c hc cs
  simp only [Reader.andThen, h c hc]

theorem SkipsSpace.mapExcept {reader : Reader α} (h : reader.SkipsSpace) (f : α → Except Fault β) :
    (reader.mapExcept f).SkipsSpace := by
  intro c hc cs
  simp only [Reader.mapExcept, h c hc]

theorem SkipsSpace.map {reader : Reader α} (h : reader.SkipsSpace) (f : α → β) :
    (reader.map f).SkipsSpace :=
  h.mapExcept _

theorem byNext_skipsSpace {choose : Token → Reader α} (h : ∀ t, (choose t).SkipsSpace) :
    (byNext choose).SkipsSpace := by
  intro c hc cs
  simp only [byNext, Token.next?_of_isSpace hc]
  split
  · rfl
  · exact h _ c hc cs

theorem SkipsSpace.orNull {reader : Reader α} (h : reader.SkipsSpace) : reader.orNull.SkipsSpace := by
  apply byNext_skipsSpace
  intro t
  split
  · exact (token_skipsSpace _).map _
  · exact h.map _

theorem members_skipsSpace (member : σ → String → Except Fault (Reader σ)) (known : σ) :
    (members member known).SkipsSpace :=
  (token_skipsSpace _).andThen _

/-! ## Single values -/

/-- What a reader comes to on a value as it is written. -/
def Takes (reader : Reader α) (x : Json) (result : Except Fault α) : Prop :=
  ∀ level rest, Delimited rest →
    reader.read (pretty level x ++ rest) = result.map fun a => (a, rest)

theorem Takes.read_newline {reader : Reader α} {result : Except Fault α}
    (h : reader.Takes x result) (hskips : reader.SkipsSpace) (level : Nat) (hrest : Delimited rest) :
    reader.read (newline level ++ (pretty level x ++ rest)) = result.map fun a => (a, rest) :=
  (hskips.newline level _).trans (h level rest hrest)

theorem Takes.mapExcept {reader : Reader α} {result : Except Fault α} (h : reader.Takes x result)
    (f : α → Except Fault β) : (reader.mapExcept f).Takes x (result.bind f) := by
  intro level rest hrest
  simp only [Reader.mapExcept, h level rest hrest]
  cases result with
  | ok a => rfl
  | error e => rfl

theorem Takes.map {reader : Reader α} {a : α} (h : reader.Takes x (.ok a)) (f : α → β) :
    (reader.map f).Takes x (.ok (f a)) :=
  h.mapExcept _

/-- A value as it is written begins with a token. -/
def StartsWith (x : Json) (t : Token) : Prop :=
  ∀ level rest, Delimited rest → ∃ rest', Token.next? (pretty level x ++ rest) = some (t, rest')

theorem byNext_takes {choose : Token → Reader α} {result : Except Fault α} (hstart : StartsWith x t)
    (h : (choose t).Takes x result) : (byNext choose).Takes x result := by
  intro level rest hrest
  obtain ⟨rest', hnext⟩ := hstart level rest hrest
  simp only [byNext, hnext]
  exact h level rest hrest

theorem next?_nat (n level : Nat) (h : Delimited rest) :
    Token.next? (pretty level (.nat n) ++ rest) =
      some (.number { whole := (toString n).toList }, rest) := by
  rw [nat, pretty]
  exact Token.next?_nat n h

theorem toNat?_toString (n : Nat) : Numeral.toNat? { whole := (toString n).toList } = some n := by
  rw [Nat.toString_eq_ofList_toDigits, String.toList_ofList]
  exact congrArg some (ofDigits_toDigits n)

theorem natUpTo_takes {max n : Nat} (h : n ≤ max) : (natUpTo max).Takes (.nat n) (.ok n) := by
  intro level rest hrest
  simp only [natUpTo, token, next?_nat n level hrest, toNat?_toString, if_pos h]

theorem word_takes (w : UInt32) : word.Takes (.word w) (.ok w) := by
  have hle : w.toNat ≤ UInt32.size - 1 := Nat.le_sub_one_of_lt w.toNat_lt
  have htakes := (natUpTo_takes hle).map UInt32.ofNat
  rw [UInt32.ofNat_toNat] at htakes
  exact htakes

theorem byte_takes (b : UInt8) : byte.Takes (.nat b.toNat) (.ok b) := by
  have hle : b.toNat ≤ 255 := Nat.le_sub_one_of_lt b.toNat_lt
  have htakes := (natUpTo_takes hle).map UInt8.ofNat
  rw [UInt8.ofNat_toNat] at htakes
  exact htakes

theorem word_skipsSpace : word.SkipsSpace := (token_skipsSpace _).map _

theorem byte_skipsSpace : byte.SkipsSpace := (token_skipsSpace _).map _

theorem startsWith_nat (n : Nat) : StartsWith (.nat n) (.number { whole := (toString n).toList }) :=
  fun level rest hrest => ⟨rest, next?_nat n level hrest⟩

theorem next?_string (text : String) (level : Nat) (rest : List Char) :
    Token.next? (pretty level (.string text) ++ rest) = some (.string (some text), rest) := by
  rw [pretty]
  exact Token.next?_quote text rest

theorem startsWith_string (text : String) : StartsWith (.string text) (.string (some text)) :=
  fun level rest _ => ⟨rest, next?_string text level rest⟩

theorem truth_takes (b : Bool) : truth.Takes (.bool b) (.ok b) := by
  intro level rest hrest
  cases b with
  | false => rfl
  | true => rfl

theorem truth_skipsSpace : truth.SkipsSpace := token_skipsSpace _

/-! ## Values that may be absent -/

theorem orNull_takes_null (reader : Reader α) : reader.orNull.Takes .null (.ok none) := by
  intro level rest hrest
  rfl

theorem orNull_takes_some {reader : Reader α} {a : α} (hstart : StartsWith x t) (hne : t ≠ .null)
    (h : reader.Takes x (.ok a)) : reader.orNull.Takes x (.ok (some a)) := by
  apply byNext_takes hstart
  cases t with
  | null => exact absurd rfl hne
  | _ => exact h.map some

/-- A value that is not written as `null`, or nothing. -/
theorem orNull_takes_of_startsWith {reader : Reader α} {write : α → Json}
    (hstart : ∀ a, ∃ t, StartsWith (write a) t ∧ t ≠ .null) (h : ∀ a, reader.Takes (write a) (.ok a))
    (value : Option α) : reader.orNull.Takes (Json.orNull write value) (.ok value) := by
  cases value with
  | none => exact orNull_takes_null reader
  | some a =>
    obtain ⟨t, hstarts, hne⟩ := hstart a
    exact orNull_takes_some hstarts hne (h a)

/-- A value that is a number, or nothing. -/
theorem orNull_takes {reader : Reader α} {number : α → Nat}
    (h : ∀ a, reader.Takes (.nat (number a)) (.ok a)) (value : Option α) :
    reader.orNull.Takes (Json.orNull (fun a => .nat (number a)) value) (.ok value) :=
  orNull_takes_of_startsWith (fun a => ⟨_, startsWith_nat (number a), nofun⟩) h value

/-! ## Arrays -/

section Arrays

variable {element : Reader α} {mid mid' : List Char} {a : α}

theorem elementsFrom_of_error {e : Fault} (h : element.read cs = .error e) :
    elementsFrom element cs = .error e := by
  rw [elementsFrom.eq_def]
  split
  · next hread => cases h.symm.trans hread; rfl
  · next hread => cases h.symm.trans hread

theorem elementsFrom_of_last (h : element.read cs = .ok (a, mid))
    (hnext : Token.next? mid = some (.rightBracket, rest)) :
    elementsFrom element cs = .ok ([a], rest) := by
  rw [elementsFrom.eq_def]
  split
  · next hread => cases h.symm.trans hread
  · next hread =>
    cases h.symm.trans hread
    split
    · next hrest => cases hnext.symm.trans hrest; rfl
    · next hrest => cases hnext.symm.trans hrest
    · next hne _ => exact absurd hnext (hne _)

theorem elementsFrom_of_comma (h : element.read cs = .ok (a, mid))
    (hnext : Token.next? mid = some (.comma, mid')) :
    elementsFrom element cs =
      (elementsFrom element mid').map fun (as, rest) => (a :: as, rest) := by
  rw [elementsFrom.eq_def]
  split
  · next hread => cases h.symm.trans hread
  · next hread =>
    cases h.symm.trans hread
    split
    · next hrest => cases hnext.symm.trans hrest
    · next hrest =>
      cases hnext.symm.trans hrest
      cases elementsFrom element mid' with
      | ok result => rfl
      | error e => rfl
    · next _ hne => exact absurd hnext (hne _)

theorem delimited_prettyElements (xs : List Json) (level level' : Nat) (cs : List Char) :
    Delimited (prettyElements level xs ++ (newline level' ++ cs)) := by
  cases xs with
  | nil => exact delimited_newline level' _
  | cons x xs => exact delimited_comma _

/-- The elements of a written array are checked one after the other. -/
theorem elementsFrom_written {write : β → Json} {check : β → Except Fault α}
    (hskips : element.SkipsSpace) (h : ∀ b, element.Takes (write b) (check b)) (level level' : Nat)
    (b : β) (bs : List β) (rest : List Char) :
    elementsFrom element (newline level ++ (pretty level (write b) ++
        (prettyElements level (bs.map write) ++ (newline level' ++ ']' :: rest)))) =
      ((b :: bs).mapM check).map fun as => (as, rest) := by
  induction bs generalizing b with
  | nil =>
    have hread := (h b).read_newline hskips level (delimited_newline level' (']' :: rest))
    rw [List.mapM_cons]
    cases hb : check b with
    | error e =>
      rw [hb] at hread
      exact elementsFrom_of_error hread
    | ok a =>
      rw [hb] at hread
      exact elementsFrom_of_last hread (Token.next?_newline level' _)
  | cons c bs ih =>
    rw [List.map_cons, prettyElements, List.mapM_cons]
    simp only [List.cons_append, List.append_assoc]
    have hread := (h b).read_newline hskips level (delimited_comma (newline level ++
      (pretty level (write c) ++
        (prettyElements level (bs.map write) ++ (newline level' ++ ']' :: rest)))))
    cases hb : check b with
    | error e =>
      rw [hb] at hread
      exact elementsFrom_of_error hread
    | ok a =>
      rw [hb] at hread
      rw [elementsFrom_of_comma hread rfl, ih]
      cases (c :: bs).mapM check with
      | ok as => rfl
      | error e => rfl

theorem elements_read (hnext : Token.next? cs = some (t, rest)) (hne : t ≠ .rightBracket) :
    (elements element).read ('[' :: cs) = elementsFrom element cs := by
  have hopen : (exactly .leftBracket).read ('[' :: cs) = .ok ((), cs) := rfl
  simp only [elements, andThen, hopen, byNext, hnext]

/-- A written array is read element by element. -/
theorem elements_takes {write : β → Json} {check : β → Except Fault α}
    (hskips : element.SkipsSpace) (h : ∀ b, element.Takes (write b) (check b))
    (hstart : ∀ b, ∃ t, StartsWith (write b) t ∧ t ≠ .rightBracket) (bs : List β) :
    (elements element).Takes (.array (bs.map write)) (bs.mapM check) := by
  intro level rest hrest
  cases bs with
  | nil => rfl
  | cons b bs =>
    rw [List.map_cons, pretty]
    simp only [List.cons_append, List.append_assoc, List.nil_append]
    rw [← elementsFrom_written hskips h (level + 1) level b bs rest]
    obtain ⟨t, hstarts, hne⟩ := hstart b
    obtain ⟨rest', hnext⟩ := hstarts (level + 1) _
      (delimited_prettyElements (bs.map write) (level + 1) level (']' :: rest))
    exact elements_read ((Token.next?_newline (level + 1) _).trans hnext) hne

end Arrays

/-! ## Objects -/

section Objects

variable {member : σ → String → Except Fault (Reader σ)} {known known' : σ} {name : String}
  {value : Reader σ} {mid mid' : List Char}

/-- The name of a member, a colon and its value. -/
def memberReader (member : σ → String → Except Fault (Reader σ)) (known : σ) : Reader σ :=
  key.andThen fun name =>
    match member known name with
    | .error e => fail e
    | .ok value => (exactly .colon).andThen fun _ => value

theorem memberReader_read (hmember : member known name = .ok value) (hskips : value.SkipsSpace)
    (level : Nat) (cs : List Char) :
    (memberReader member known).read
        (newline level ++ (Quoted.quote name.toList ++ ':' :: ' ' :: cs)) = value.read cs := by
  have hkey : key.read (newline level ++ (Quoted.quote name.toList ++ ':' :: ' ' :: cs)) =
      .ok (name, ':' :: ' ' :: cs) := by
    rw [key, (token_skipsSpace _).newline, token]
    simp only [Token.next?_quote]
    rfl
  have hcolon : (exactly .colon).read (':' :: ' ' :: cs) = .ok ((), ' ' :: cs) := rfl
  simp only [memberReader, andThen, hkey, hmember, hcolon]
  exact hskips ' ' rfl cs

theorem membersFrom_of_error {e : Fault} (h : (memberReader member known).read cs = .error e) :
    membersFrom member known cs = .error e := by
  rw [membersFrom.eq_def]
  split
  · next hread => cases h.symm.trans hread; rfl
  · next hread => cases h.symm.trans hread

theorem membersFrom_of_last (h : (memberReader member known).read cs = .ok (known', mid))
    (hnext : Token.next? mid = some (.rightBrace, rest)) :
    membersFrom member known cs = .ok (known', rest) := by
  rw [membersFrom.eq_def]
  split
  · next hread => cases h.symm.trans hread
  · next hread =>
    cases h.symm.trans hread
    split
    · next hrest => cases hnext.symm.trans hrest; rfl
    · next hrest => cases hnext.symm.trans hrest
    · next hne _ => exact absurd hnext (hne _)

theorem membersFrom_of_comma (h : (memberReader member known).read cs = .ok (known', mid))
    (hnext : Token.next? mid = some (.comma, mid')) :
    membersFrom member known cs = membersFrom member known' mid' := by
  rw [membersFrom.eq_def]
  split
  · next hread => cases h.symm.trans hread
  · next hread =>
    cases h.symm.trans hread
    split
    · next hrest => cases hnext.symm.trans hrest
    · next hrest => cases hnext.symm.trans hrest; rfl
    · next _ hne => exact absurd hnext (hne _)

/-- What the members of an object come to, one after the other. The first value that is refused ends the
object. -/
inductive TakesMembers (member : σ → String → Except Fault (Reader σ)) :
    (known : σ) → List (String × Json) → Except Fault σ → Prop
  | nil (known : σ) : TakesMembers member known [] (.ok known)
  | cons {known known' : σ} {name : String} {x : Json} {value : Reader σ}
      {members : List (String × Json)} {result : Except Fault σ}
      (hmember : member known name = .ok value) (hskips : value.SkipsSpace)
      (hvalue : value.Takes x (.ok known')) (hrest : TakesMembers member known' members result) :
      TakesMembers member known ((name, x) :: members) result
  | refused {known : σ} {name : String} {x : Json} {value : Reader σ}
      {members : List (String × Json)} {e : Fault}
      (hmember : member known name = .ok value) (hskips : value.SkipsSpace)
      (hvalue : value.Takes x (.error e)) :
      TakesMembers member known ((name, x) :: members) (.error e)

theorem delimited_prettyMembers (members : List (String × Json)) (level level' : Nat)
    (cs : List Char) : Delimited (prettyMembers level members ++ (newline level' ++ cs)) := by
  cases members with
  | nil => exact delimited_newline level' _
  | cons m members => exact delimited_comma _

/-- The members of a written object are read one after the other. -/
theorem membersFrom_written {members : List (String × Json)} {result : Except Fault σ}
    (h : TakesMembers member known ((name, x) :: members) result) (level level' : Nat)
    (rest : List Char) :
    membersFrom member known (newline level ++ (Quoted.quote name.toList ++ ':' :: ' ' ::
        (pretty level x ++ (prettyMembers level members ++ (newline level' ++ '\x7d' :: rest))))) =
      result.map fun known => (known, rest) := by
  induction members generalizing known name x with
  | nil =>
    have hdelimited := delimited_prettyMembers [] level level' ('\x7d' :: rest)
    cases h with
    | cons hmember hskips hvalue hrest =>
      cases hrest
      have hread := (memberReader_read hmember hskips level _).trans (hvalue level _ hdelimited)
      exact membersFrom_of_last hread (Token.next?_newline level' _)
    | refused hmember hskips hvalue =>
      have hread := (memberReader_read hmember hskips level _).trans (hvalue level _ hdelimited)
      exact membersFrom_of_error hread
  | cons m members ih =>
    obtain ⟨name', x'⟩ := m
    have hdelimited := delimited_prettyMembers ((name', x') :: members) level level' ('\x7d' :: rest)
    cases h with
    | cons hmember hskips hvalue hrest =>
      have hread := (memberReader_read hmember hskips level _).trans (hvalue level _ hdelimited)
      rw [← ih hrest]
      apply membersFrom_of_comma hread
      simp only [prettyMembers, List.cons_append, List.append_assoc, List.nil_append]
      rfl
    | refused hmember hskips hvalue =>
      have hread := (memberReader_read hmember hskips level _).trans (hvalue level _ hdelimited)
      exact membersFrom_of_error hread

theorem members_read (hnext : Token.next? cs = some (t, rest)) (hne : t ≠ .rightBrace) :
    (members member known).read ('\x7b' :: cs) = membersFrom member known cs := by
  have hopen : (exactly .leftBrace).read ('\x7b' :: cs) = .ok ((), cs) := rfl
  simp only [members, andThen, hopen, byNext, hnext]

/-- A written object is read member by member. -/
theorem members_takes {ms : List (String × Json)} {result : Except Fault σ}
    (h : TakesMembers member known ms result) :
    (members member known).Takes (.object ms) result := by
  intro level rest hrest
  cases ms with
  | nil =>
    cases h
    rfl
  | cons m ms =>
    obtain ⟨name, x⟩ := m
    rw [pretty, ← membersFrom_written h (level + 1) level rest]
    simp only [List.cons_append, List.append_assoc, List.nil_append]
    have hnext := (Token.next?_newline (level + 1) _).trans (Token.next?_quote name
      (':' :: ' ' :: (pretty (level + 1) x ++
        (prettyMembers (level + 1) ms ++ (newline level ++ '\x7d' :: rest)))))
    exact members_read hnext nofun

theorem startsWith_object (ms : List (String × Json)) : StartsWith (.object ms) .leftBrace := by
  intro level rest hrest
  cases ms with
  | nil => exact ⟨_, rfl⟩
  | cons m ms => exact ⟨_, rfl⟩

end Objects

/-! ## Whole texts -/

/-- The text of a value is read to its end. -/
theorem readAll_of_takes {reader : Reader α} {result : Except Fault α} (h : reader.Takes x result) :
    reader.readAll x.text.toList = result := by
  have htakes := h 0 ['\n'] (delimited_newline 0 [])
  rw [text, String.toList_ofList, readAll, htakes]
  cases result with
  | ok a => rfl
  | error e => rfl

end Reader

end Lockstep.Json
