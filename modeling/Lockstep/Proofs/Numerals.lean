import Mathlib.Computability.Language
import Lockstep.Proofs.Tokens
import Lockstep.Text.Digit
import Lockstep.Text.Hex

/-!
# Numbers as they are written

A number has many spellings: its letters may be of either case, and any count of zeros may stand in front
(`numeral`). They are all read as the same number, in base sixteen (`Hex.ofDigits_of_mem_numeral`) and in base
ten (`asciiNumber?_of_mem_numeral`).
-/

namespace Lockstep

variable {n : Nat} {c : Char} {w digits : List Char}

/-- The ways to write a number. -/
def numeral (base n : Nat) : Language Char :=
  {w | ∃ zeros, w.map Char.toLower = List.replicate zeros '0' ++ Nat.toDigits base n}

theorem ne_nil_of_mem_numeral {base : Nat} (h : w ∈ numeral base n) : w ≠ [] := by
  obtain ⟨zeros, hdigits⟩ := h
  rintro rfl
  exact Nat.toDigits_ne_nil (List.append_eq_nil_iff.1 hdigits.symm).2

/-! ## Letters of either case -/

/-- What holds of the first characters by trial and of the others by an argument holds of all. -/
theorem forall_char {P : Char → Prop} (h : ∀ n < 128, P (Char.ofNat n))
    (hlarge : ∀ c, 128 ≤ c.toNat → P c) (c : Char) : P c := by
  by_cases hc : c.toNat < 128
  · have hsmall := h c.toNat hc
    rwa [Char.ofNat_toNat] at hsmall
  · exact hlarge c (Nat.le_of_not_lt hc)

theorem toLower_of_le (h : 128 ≤ c.toNat) : c.toLower = c := by
  unfold Char.toLower
  rw [dif_neg]
  rintro ⟨-, hle⟩
  have hsmall : c.toNat ≤ 90 := UInt32.le_iff_toNat_le.1 hle
  omega

theorem Hex.digit?_toLower : ∀ c : Char, digit? c.toLower = digit? c :=
  forall_char (by decide) fun _ h => by rw [toLower_of_le h]

/-- A digit has no other case. -/
theorem eq_of_toLower_isDigit : ∀ c : Char, c.toLower.isDigit = true → c.toLower = c :=
  forall_char (by decide) fun _ h _ => toLower_of_le h

/-! ## Base sixteen -/

namespace Hex

theorem digit?_digitChar (h : n < 16) : digit? n.digitChar = some n := by
  revert n
  decide

theorem isDigit_toLower (c : Char) : isDigit c.toLower = isDigit c := by
  rw [isDigit, isDigit, digit?_toLower]

theorem ofDigits_map_toLower (digits : List Char) : ofDigits (digits.map Char.toLower) = ofDigits digits := by
  simp only [ofDigits, List.foldl_map, digit?_toLower]

theorem ofDigits_zeros (zeros : Nat) (digits : List Char) :
    ofDigits (List.replicate zeros '0' ++ digits) = ofDigits digits := by
  induction zeros with
  | zero => rfl
  | succ zeros ih =>
    rw [List.replicate_succ, List.cons_append, ← ih]
    rfl

theorem ofDigits_toDigits (n : Nat) : ofDigits (Nat.toDigits 16 n) = n := by
  induction n using Nat.strongRecOn with
  | _ n ih =>
    by_cases h : n < 16
    · rw [Nat.toDigits_of_lt_base h]
      simp [ofDigits, digit?_digitChar h]
    · have hdigit := digit?_digitChar (Nat.mod_lt n (by decide : 0 < 16))
      rw [Nat.toDigits_of_base_le (by decide) (by omega), ofDigits_append_singleton,
        ih (n / 16) (by omega), hdigit, Option.getD_some]
      omega

theorem isDigit_of_mem_toDigits (h : c ∈ Nat.toDigits 16 n) : isDigit c = true := by
  induction n using Nat.strongRecOn with
  | _ n ih =>
    by_cases hlt : n < 16
    · rw [Nat.toDigits_of_lt_base hlt, List.mem_singleton] at h
      rw [h, isDigit, digit?_digitChar hlt]
      rfl
    · rw [Nat.toDigits_of_base_le (by decide) (by omega), List.mem_append, List.mem_singleton] at h
      rcases h with hfront | rfl
      · exact ih (n / 16) (by omega) hfront
      · rw [isDigit, digit?_digitChar (Nat.mod_lt n (by decide))]
        rfl

/-- However a number is written, it is read. -/
theorem ofDigits_of_mem_numeral (h : w ∈ numeral 16 n) : ofDigits w = n := by
  obtain ⟨zeros, hdigits⟩ := h
  rw [← ofDigits_map_toLower, hdigits, ofDigits_zeros, ofDigits_toDigits]

theorem isDigit_of_mem_numeral (h : w ∈ numeral 16 n) : ∀ c ∈ w, isDigit c = true := by
  obtain ⟨zeros, hdigits⟩ := h
  intro c hc
  have hmem : c.toLower ∈ w.map Char.toLower := List.mem_map_of_mem hc
  rw [hdigits, List.mem_append] at hmem
  rw [← isDigit_toLower]
  rcases hmem with hzero | hdigit
  · rw [List.eq_of_mem_replicate hzero]
    rfl
  · exact isDigit_of_mem_toDigits hdigit

end Hex

/-! ## Base ten -/

theorem eq_of_mem_numeral (h : w ∈ numeral 10 n) :
    ∃ zeros, w = List.replicate zeros '0' ++ Nat.toDigits 10 n := by
  obtain ⟨zeros, hdigits⟩ := h
  refine ⟨zeros, hdigits ▸ (List.map_id w).symm.trans ?_⟩
  apply List.map_congr_left
  intro c hc
  have hmem : c.toLower ∈ w.map Char.toLower := List.mem_map_of_mem hc
  rw [hdigits, List.mem_append] at hmem
  apply (eq_of_toLower_isDigit c _).symm
  rcases hmem with hzero | hdigit
  · rw [List.eq_of_mem_replicate hzero]
    rfl
  · exact Nat.isDigit_of_mem_toDigits (by decide) (by decide) hdigit

theorem isDigit_of_mem_numeral (h : w ∈ numeral 10 n) : ∀ c ∈ w, c.isDigit = true := by
  obtain ⟨zeros, rfl⟩ := eq_of_mem_numeral h
  intro c hc
  rcases List.mem_append.1 hc with hzero | hdigit
  · rw [List.eq_of_mem_replicate hzero]
    rfl
  · exact Nat.isDigit_of_mem_toDigits (by decide) (by decide) hdigit

theorem asciiNumber?_of_mem_numeral (h : w ∈ numeral 10 n) : asciiNumber? w = some n := by
  have hzeros (zeros : Nat) :
      (List.replicate zeros '0').foldl (fun n c => 10 * n + (c.toNat - 48)) 0 = 0 := by
    induction zeros with
    | zero => rfl
    | succ zeros ih => exact ih
  have hall : w.all Char.isDigit = true := List.all_eq_true.2 (isDigit_of_mem_numeral h)
  obtain ⟨zeros, rfl⟩ := eq_of_mem_numeral h
  rw [asciiNumber?, if_pos hall, List.foldl_append, hzeros]
  exact congrArg some (Json.ofDigits_toDigits n)

end Lockstep
