import Lockstep.Proofs.Written
import Lockstep.Settings.File

/-!
# Members of objects

What is found under a key. A member that is put into an object hides what stood under its key
(`find?_insertMember`), so where two objects are merged the second one counts (`find?_merge`).

An object that was read has each key once: its members are put in one by one, which no reader of a value undoes
(`distinct_of_parse`, by induction over the members with `membersFrom_preserves`). An object with each key once
is read as it was written (`parse_object`).
-/

namespace Lockstep.Json

variable {members first second : Members} {key other : String} {value : Json}

/-! ## Look-ups -/

theorem Members.find?_cons (name : String) (value : Json) (members : Members) (key : String) :
    Members.find? ((name, value) :: members) key =
      if name = key then some value else members.find? key := by
  unfold Members.find?
  by_cases h : name = key
  · rw [List.find?_cons_of_pos (by simpa using h), if_pos h]
    rfl
  · rw [List.find?_cons_of_neg (by simpa using h), if_neg h]

theorem Members.find?_append (first second : Members) (key : String) :
    Members.find? (first ++ second) key = (first.find? key).or (second.find? key) := by
  unfold Members.find?
  rw [List.find?_append]
  cases List.find? (·.1 == key) first with
  | none => rfl
  | some m => rfl

theorem Members.find?_eq_none_iff :
    members.find? key = none ↔ key ∉ List.map Prod.fst members := by
  induction members with
  | nil => simp [Members.find?]
  | cons m members ih =>
    obtain ⟨name, value⟩ := m
    rw [find?_cons, List.map_cons, List.mem_cons, not_or, ← ih]
    by_cases h : name = key
    · simp [h]
    · simp [h, Ne.symm h]

/-- Where the value of a key is replaced, it has to be there already. -/
theorem find?_map_replace (members : Members) (key : String) (value : Json) (other : String) :
    Members.find? (members.map fun m => if m.1 == key then (key, value) else m) other =
      if key = other then (members.find? other).map fun _ => value else members.find? other := by
  induction members with
  | nil => exact (ite_self none).symm
  | cons m members ih =>
    obtain ⟨name, old⟩ := m
    rw [List.map_cons]
    by_cases hname : name = key
    · subst hname
      rw [beq_self_eq_true, if_pos rfl, Members.find?_cons, Members.find?_cons, ih]
      by_cases h : name = other
      · simp [h]
      · simp [h]
    · have hkept : (name == key) = false := by simpa using hname
      rw [hkept, if_neg Bool.false_ne_true, Members.find?_cons, Members.find?_cons, ih]
      by_cases h : name = other
      · subst h
        rw [if_pos rfl, if_neg (Ne.symm hname), if_pos rfl]
      · rw [if_neg h, if_neg h]

/-- A member that is put in is found under its key, and hides what stood there. -/
theorem find?_insertMember (members : Members) (key : String) (value : Json) (other : String) :
    Members.find? (insertMember members key value) other =
      if key = other then some value else members.find? other := by
  unfold insertMember
  split
  · next hany =>
    rw [find?_map_replace]
    by_cases h : key = other
    · subst h
      have hpresent : members.find? key ≠ none := by
        rw [Ne, Members.find?_eq_none_iff]
        simpa using hany
      obtain ⟨old, hold⟩ := Option.ne_none_iff_exists'.1 hpresent
      rw [if_pos rfl, if_pos rfl, hold, Option.map_some]
    · rw [if_neg h, if_neg h]
  · next hnone =>
    have habsent : members.find? key = none := by
      rw [Members.find?_eq_none_iff]
      simpa using hnone
    rw [Members.find?_append, Members.find?_cons]
    by_cases h : key = other
    · subst h
      rw [habsent, if_pos rfl, if_pos rfl, Option.none_or]
    · rw [if_neg h, if_neg h]
      exact Option.or_none

/-- Each key stands once. -/
def Members.Distinct (members : Members) : Prop := (List.map Prod.fst members).Nodup

instance (members : Members) : Decidable members.Distinct :=
  inferInstanceAs (Decidable (List.map Prod.fst members).Nodup)

theorem Members.distinct_nil : Members.Distinct [] := List.nodup_nil

/-- Where two objects are merged, the second one counts. -/
theorem find?_merge (first : Members) (hsecond : second.Distinct) (key : String) :
    (merge first second).find? key = (second.find? key).or (first.find? key) := by
  induction second generalizing first with
  | nil => rfl
  | cons m second ih =>
    obtain ⟨name, value⟩ := m
    obtain ⟨hfresh, hsecond⟩ := List.nodup_cons.1 hsecond
    change (merge (insertMember first name value) second).find? key = _
    rw [ih _ hsecond, find?_insertMember, Members.find?_cons]
    by_cases h : name = key
    · subst h
      rw [Members.find?_eq_none_iff.2 hfresh, if_pos rfl, if_pos rfl, Option.none_or, Option.some_or]
    · rw [if_neg h, if_neg h]

/-! ## What was read -/

theorem Members.Distinct.insertMember (h : members.Distinct) (key : String) (value : Json) :
    Members.Distinct (insertMember members key value) := by
  unfold Members.Distinct Json.insertMember
  split
  · have hkeys : List.map Prod.fst
        (members.map fun m => if m.1 == key then (key, value) else m) =
          List.map Prod.fst members := by
      rw [List.map_map]
      apply List.map_congr_left
      intro m _
      by_cases hm : m.1 = key
      · simp [hm]
      · simp [hm]
    rw [hkeys]
    exact h
  · next hnone =>
    have hfresh : key ∉ List.map Prod.fst members := by simpa using hnone
    rw [List.map_append, List.nodup_append]
    refine ⟨h, by simp, fun name hname other hother => ?_⟩
    obtain rfl := List.mem_singleton.1 hother
    exact ne_of_mem_of_not_mem hname hfresh

namespace Reader

variable {α β σ : Type} {cs rest : List Char}

theorem andThen_eq_ok {first : Reader α} {second : α → Reader β} {b : β} :
    (first.andThen second).read cs = .ok (b, rest) ↔
      ∃ a mid, first.read cs = .ok (a, mid) ∧ (second a).read mid = .ok (b, rest) := by
  simp only [andThen]
  cases first.read cs with
  | error e => simp
  | ok result =>
    constructor
    · intro h
      exact ⟨_, _, rfl, h⟩
    · rintro ⟨a, mid, hfirst, h⟩
      cases hfirst
      exact h

theorem map_eq_ok {first : Reader α} {f : α → β} {b : β} :
    (first.map f).read cs = .ok (b, rest) ↔ ∃ a, first.read cs = .ok (a, rest) ∧ f a = b := by
  simp only [map, mapExcept]
  cases first.read cs with
  | error e => simp
  | ok result =>
    constructor
    · intro h
      cases h
      exact ⟨_, rfl, rfl⟩
    · rintro ⟨a, hfirst, rfl⟩
      cases hfirst
      rfl

variable {P : σ → Prop} {member : σ → String → Except Fault (Reader σ)} {known final : σ}

/-- What every value keeps, the members of an object keep. -/
theorem membersFrom_preserves
    (hmember : ∀ {known known' name value cs rest}, P known → member known name = .ok value →
      value.read cs = .ok (known', rest) → P known')
    (h : P known) (hread : membersFrom member known cs = .ok (final, rest)) : P final := by
  have hone {known known' : σ} {cs rest : List Char} (h : P known)
      (hread : (memberReader member known).read cs = .ok (known', rest)) : P known' := by
    obtain ⟨name, mid, -, hread⟩ := andThen_eq_ok.1 hread
    cases hvalue : member known name with
    | error e =>
      rw [hvalue] at hread
      cases hread
    | ok value =>
      rw [hvalue] at hread
      obtain ⟨-, later, -, hread⟩ := andThen_eq_ok.1 hread
      exact hmember h hvalue hread
  fun_induction membersFrom member known cs with
  | case1 => cases hread
  | case2 known cs known' mid hr rest' ht =>
    cases hread
    exact hone h hr
  | case3 known cs known' mid hr rest' ht ih => exact ih (hone h hr) hread
  | case4 => cases hread

theorem members_preserves
    (hmember : ∀ {known known' name value cs rest}, P known → member known name = .ok value →
      value.read cs = .ok (known', rest) → P known')
    (h : P known) (hread : (Reader.members member known).read cs = .ok (final, rest)) : P final := by
  obtain ⟨-, mid, -, hread⟩ := andThen_eq_ok.1 hread
  simp only [byNext] at hread
  split at hread
  · cases hread
  · split at hread
    · obtain ⟨-, -, rfl⟩ := map_eq_ok.1 hread
      exact h
    · exact membersFrom_preserves hmember h hread

end Reader

theorem distinct_of_reader {depth : Nat} {cs rest : List Char}
    (h : (reader depth).read cs = .ok (.object members, rest)) : members.Distinct := by
  have hscalar : reader.scalar.read cs ≠ .ok (.object members, rest) := by
    intro h
    simp only [reader.scalar, Reader.token] at h
    split at h
    · cases h
    · next t _ ht =>
      cases t with
      | number n =>
        dsimp only at h
        split at h <;> cases h
      | string text => cases text <;> cases h
      | _ => cases h
  cases depth with
  | zero => exact absurd h hscalar
  | succ depth =>
    simp only [reader, Reader.byNext] at h
    split at h
    · cases h
    · split at h
      · obtain ⟨elements, -, helements⟩ := Reader.map_eq_ok.1 h
        cases helements
      · obtain ⟨final, hread, hfinal⟩ := Reader.map_eq_ok.1 h
        cases hfinal
        refine Reader.members_preserves (P := Members.Distinct) ?_ Members.distinct_nil hread
        intro known known' name value cs rest hknown hvalue hread
        cases hvalue
        obtain ⟨x, -, rfl⟩ := Reader.map_eq_ok.1 hread
        exact Members.Distinct.insertMember hknown name x
      · exact absurd h hscalar

/-- An object that was read has each key once. -/
theorem distinct_of_parse {text : String} (h : parse text = .ok (.object members)) :
    members.Distinct := by
  unfold parse Reader.readAll at h
  split at h
  · cases h
  · next value rest hread =>
    split at h
    · cases h
      exact distinct_of_reader hread
    · cases h

/-! ## What is read again -/

namespace Numeral

theorem le_foldl_digits (m : Nat) (cs : List Char) :
    m ≤ cs.foldl (fun n c => 10 * n + (c.toNat - 48)) m := by
  induction cs generalizing m with
  | nil => exact Nat.le_refl m
  | cons c cs ih => exact Nat.le_trans (by omega) (ih (10 * m + (c.toNat - 48)))

/-- Digits that fit are all appended. -/
theorem appendWhole_of_lt {fits : Nat → Bool} {limit : Nat} (hfits : ∀ n < limit, fits n = true)
    {m : Nat} {cs : List Char}
    (h : cs.foldl (fun n c => 10 * n + (c.toNat - 48)) m < limit) :
    appendWhole fits m cs = (cs.foldl (fun n c => 10 * n + (c.toNat - 48)) m, 0) := by
  induction cs generalizing m with
  | nil => rfl
  | cons c cs ih =>
    have hnext : fits (10 * m + (c.toNat - 48)) = true :=
      hfits _ (Nat.lt_of_le_of_lt (le_foldl_digits _ cs) h)
    simp only [appendWhole, hnext, if_true]
    exact ih h

theorem scaled_nat {n : Nat} (h : n < UInt64.size) :
    scaled { whole := (toString n).toList } = (n, 0) := by
  have hdigits : (toString n).toList.foldl (fun n c => 10 * n + (c.toNat - 48)) 0 = n := by
    rw [Nat.toString_eq_ofList_toDigits, String.toList_ofList]
    exact ofDigits_toDigits n
  have hwhole : appendWhole (fun m => decide (m < UInt64.size)) 0 (toString n).toList = (n, 0) := by
    have hall := appendWhole_of_lt (fun m (hm : m < UInt64.size) => decide_eq_true hm)
      (hdigits.symm ▸ h)
    rw [hdigits] at hall
    exact hall
  simp only [scaled, hwhole]
  rfl

theorem nearestDouble_le (n : Nat) : nearestDouble n ≤ 2 * n + 1 := by
  have hunit : Nat.pow 2 (n.log2 - 52) ≤ n + 1 := by
    rcases Nat.eq_zero_or_pos n with rfl | hn
    · exact Nat.le_refl 1
    · calc Nat.pow 2 (n.log2 - 52)
        _ ≤ 2 ^ n.log2 := Nat.pow_le_pow_right Nat.two_pos (Nat.sub_le _ _)
        _ ≤ n := Nat.log2_self_le (Nat.ne_of_gt hn)
        _ ≤ n + 1 := Nat.le_succ n
  have hpos : 0 < Nat.pow 2 (n.log2 - 52) := Nat.pow_pos Nat.two_pos
  have hround : 2 * nearestDouble n ≤ 2 * n + Nat.pow 2 (n.log2 - 52) :=
    (Decimal.two_mul_dist_roundDiv_le hpos).1
  omega

/-- A natural number of 64 bits is read without overflow. -/
theorem isFinite_nat {n : Nat} (h : n < UInt64.size) :
    isFinite { whole := (toString n).toList } = true := by
  have hone : nearestDouble (Nat.pow 10 0) = 1 := by decide +kernel
  have hoverflow : 2 * UInt64.size + 1 ≤ overflow := by decide +kernel
  have hlt : nearestDouble n * nearestDouble (Nat.pow 10 0) < overflow := by
    rw [hone, Nat.mul_one]
    calc nearestDouble n
      _ ≤ 2 * n + 1 := nearestDouble_le n
      _ < 2 * UInt64.size + 1 := by omega
      _ ≤ overflow := hoverflow
  rw [isFinite, scaled_nat h]
  change (n == 0 || (true && decide (nearestDouble n * nearestDouble (Nat.pow 10 0) < overflow))) = _
  rw [decide_eq_true hlt, Bool.and_true, Bool.or_true]

end Numeral

variable {depth : Nat}

theorem reader_skipsSpace (depth : Nat) : (reader depth).SkipsSpace := by
  cases depth with
  | zero => exact Reader.token_skipsSpace _
  | succ depth =>
    apply Reader.byNext_skipsSpace
    intro t
    split
    · exact ((Reader.token_skipsSpace _).andThen _).map _
    · exact (Reader.members_skipsSpace _ _).map _
    · exact Reader.token_skipsSpace _

theorem reader_takes_nat {n : Nat} (h : n < UInt64.size) :
    (reader depth).Takes (.nat n) (.ok (.nat n)) := by
  have hscalar : reader.scalar.Takes (.nat n) (.ok (.nat n)) := by
    intro level rest hrest
    simp only [reader.scalar, Reader.token, Reader.next?_nat n level hrest, Numeral.isFinite_nat h,
      if_true]
    rfl
  cases depth with
  | zero => exact hscalar
  | succ depth => exact Reader.byNext_takes (Reader.startsWith_nat n) hscalar

theorem reader_takes_bool (b : Bool) : (reader depth).Takes (.bool b) (.ok (.bool b)) := by
  intro level rest hrest
  cases depth with
  | zero => cases b <;> rfl
  | succ depth => cases b <;> rfl

theorem insertMember_of_notMem (h : key ∉ List.map Prod.fst members) (value : Json) :
    insertMember members key value = members ++ [(key, value)] := by
  unfold insertMember
  rw [if_neg]
  simpa using h

/-- Members that are put into an object one by one stand in it in their order. -/
theorem merge_eq_append (h : Members.Distinct (first ++ second)) :
    merge first second = first ++ second := by
  induction second generalizing first with
  | nil => exact (List.append_nil first).symm
  | cons m second ih =>
    obtain ⟨name, value⟩ := m
    have hfresh : name ∉ List.map Prod.fst first := by
      unfold Members.Distinct at h
      rw [List.map_append, List.nodup_append] at h
      exact fun hmem => h.2.2 name hmem name List.mem_cons_self rfl
    change merge (insertMember first name value) second = _
    rw [insertMember_of_notMem hfresh, ih, List.append_assoc, List.singleton_append]
    rwa [List.append_assoc, List.singleton_append]

/-- The members of a written object are put into what is known, one after the other. -/
theorem takesMembers_merge (known : Members)
    (h : ∀ m ∈ members, (reader depth).Takes m.2 (.ok m.2)) :
    Reader.TakesMembers (fun known name => .ok ((reader depth).map (insertMember known name))) known
      members (.ok (merge known members)) := by
  induction members generalizing known with
  | nil => exact .nil known
  | cons m members ih =>
    obtain ⟨name, value⟩ := m
    obtain ⟨hvalue, hrest⟩ := List.forall_mem_cons.1 h
    exact .cons rfl ((reader_skipsSpace depth).map _) (hvalue.map _) (ih _ hrest)

/-- An object with each key once is read as it was written. -/
theorem parse_object (hdistinct : members.Distinct)
    (h : ∀ m ∈ members, (reader 126).Takes m.2 (.ok m.2)) :
    parse (Json.object members).text = .ok (.object members) := by
  have hmerge : merge [] members = members := merge_eq_append hdistinct
  have htakes := (Reader.members_takes (takesMembers_merge [] h)).map Json.object
  rw [hmerge] at htakes
  exact Reader.readAll_of_takes (Reader.byNext_takes (Reader.startsWith_object members) htakes)

end Lockstep.Json
