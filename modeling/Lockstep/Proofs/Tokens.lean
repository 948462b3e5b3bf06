import Lockstep.Json

/-!
# Tokens of written values

What `Json.pretty` writes begins with a token that `Token.next?` reads. White space in front of a token changes
nothing, a quoted text ends with its quote, and the digits of a number end where a comma or a line end follows
(`Delimited`): a point or another digit there would be taken for a part of the number.
-/

namespace Lockstep.Json

variable {cs rest : List Char}

/-! ## White space -/

theorem isSpace_of_mem_newline (level : Nat) : ∀ c ∈ newline level, isSpace c = true := by
  intro c hc
  rcases List.mem_cons.1 hc with rfl | hc
  · decide
  · rw [List.eq_of_mem_replicate hc]
    decide

theorem Token.next?_of_isSpace {c : Char} (h : isSpace c = true) (cs : List Char) :
    next? (c :: cs) = next? cs := by
  rw [next?, List.dropWhile_cons_of_pos h, next?]

theorem Token.next?_newline (level : Nat) (cs : List Char) :
    next? (newline level ++ cs) = next? cs := by
  have hblanks := isSpace_of_mem_newline level
  generalize newline level = blanks at hblanks
  induction blanks with
  | nil => rfl
  | cons c blanks ih =>
    obtain ⟨hc, hblanks⟩ := List.forall_mem_cons.1 hblanks
    rw [List.cons_append, next?_of_isSpace hc, ih hblanks]

/-! ## Texts -/

theorem Token.next?_quote (text : String) (rest : List Char) :
    next? (Quoted.quote text.toList ++ rest) = some (.string (some text), rest) := by
  have hquote : next? (Quoted.quote text.toList ++ rest) =
      string? (text.toList.flatMap Quoted.escape ++ '"' :: rest) := by
    rw [Quoted.quote, List.cons_append, List.cons_append, List.append_assoc]
    rfl
  rw [hquote, string?, Quoted.units?_escape, Option.map_some]
  dsimp only
  rw [Quoted.text?_map_toNat, Option.map_some, String.ofList_toList]

/-! ## Numbers -/

/-- Behind a value stands a comma or a line end. -/
def Delimited (rest : List Char) : Prop := ∃ c tail, rest = c :: tail ∧ (c = ',' ∨ c = '\n')

theorem delimited_comma (rest : List Char) : Delimited (',' :: rest) := ⟨_, _, rfl, .inl rfl⟩

theorem delimited_newline (level : Nat) (rest : List Char) : Delimited (newline level ++ rest) :=
  ⟨_, _, rfl, .inr rfl⟩

/-- No number but zero begins with a zero. -/
theorem head?_toDigits {n : Nat} (h : n ≠ 0) : (Nat.toDigits 10 n).head? ≠ some '0' := by
  have hone : ∀ n < 10, n ≠ 0 → [n.digitChar].head? ≠ some '0' := by decide
  induction n using Nat.strongRecOn with
  | _ n ih =>
    by_cases hlt : n < 10
    · rw [Nat.toDigits_of_lt_base hlt]
      exact hone n hlt h
    · have hfront := ih (n / 10) (by omega) (by omega)
      rw [Nat.toDigits_of_base_le (by decide) (by omega), List.head?_append]
      cases hdigits : Nat.toDigits 10 (n / 10) with
      | nil => exact absurd hdigits Nat.toDigits_ne_nil
      | cons digit digits =>
        rw [hdigits] at hfront
        exact hfront

theorem ofDigits_toDigits (n : Nat) : Numeral.ofDigits (Nat.toDigits 10 n) = n := by
  have hfold : Nat.ofDigitChars 10 (Nat.toDigits 10 n) 0 = _ := Nat.ofDigitChars_eq_foldl
  rw [Nat.ofDigitChars_ten_toDigits] at hfold
  exact hfold.symm

theorem Numeral.unsigned?_toDigits (n : Nat) (h : Delimited rest) :
    unsigned? false (Nat.toDigits 10 n ++ rest) =
      some ({ whole := Nat.toDigits 10 n }, rest) := by
  obtain ⟨c, tail, rfl, hc⟩ := h
  have hdigits : ∀ d ∈ Nat.toDigits 10 n, d.isDigit = true := fun d hd =>
    Nat.isDigit_of_mem_toDigits (by decide) (by decide) hd
  have hend : c.isDigit = false := by rcases hc with rfl | rfl <;> decide
  have htake : (Nat.toDigits 10 n ++ c :: tail).takeWhile Char.isDigit = Nat.toDigits 10 n := by
    rw [List.takeWhile_append_of_pos hdigits, List.takeWhile_cons_of_neg (by simp [hend]),
      List.append_nil]
  have hdrop : (Nat.toDigits 10 n ++ c :: tail).dropWhile Char.isDigit = c :: tail := by
    rw [List.dropWhile_append_of_pos hdigits, List.dropWhile_cons_of_neg (by simp [hend])]
  have hzero : ((Nat.toDigits 10 n).head? == some '0' && (Nat.toDigits 10 n).length != 1) = false := by
    by_cases hn : n = 0
    · subst hn
      decide
    · simp [head?_toDigits hn]
  have hfraction : fraction? (c :: tail) = some (none, c :: tail) := by
    rcases hc with rfl | rfl <;> rfl
  have hexponent : exponent? (c :: tail) = some (none, c :: tail) := by
    rcases hc with rfl | rfl <;> rfl
  have hempty : (Nat.toDigits 10 n).isEmpty = false := by
    simp
  simp only [unsigned?, htake, hdrop, hzero, hempty, hfraction, Bool.or_false, Bool.false_eq_true,
    if_false]
  change (exponent? (c :: tail)).bind _ = _
  rw [hexponent]
  rfl

/-- What begins with a digit is a number. -/
theorem Token.next?_of_isDigit {c : Char} (h : c.isDigit = true) (cs : List Char) :
    next? (c :: cs) = number? false (c :: cs) := by
  have hne (other : Char) (hother : other.isDigit = false) : c ≠ other := by
    rintro rfl
    exact absurd (h.symm.trans hother) (by decide)
  have hspace : isSpace c = false := by
    simp [isSpace, hne ' ' rfl, hne '\t' rfl, hne '\n' rfl, hne '\r' rfl]
  have hpunctuation : punctuation? c = none := by
    simp [punctuation?, hne '[' rfl, hne ']' rfl, hne '\x7b' rfl, hne '\x7d' rfl, hne ',' rfl,
      hne ':' rfl]
  rw [next?, List.dropWhile_cons_of_neg (by simp [hspace])]
  dsimp only
  rw [starting?, hpunctuation]
  simp only [hne '"' rfl, hne '-' rfl, hne 'n' rfl, hne 't' rfl, hne 'f' rfl, if_false]

theorem Token.next?_nat (n : Nat) (h : Delimited rest) :
    next? (Numeral.text { whole := (toString n).toList } ++ rest) =
      some (.number { whole := (toString n).toList }, rest) := by
  have hwhole : (toString n).toList = Nat.toDigits 10 n := by
    rw [Nat.toString_eq_ofList_toDigits, String.toList_ofList]
  have htext : Numeral.text { whole := Nat.toDigits 10 n } = Nat.toDigits 10 n := by
    simp [Numeral.text]
  rw [hwhole, htext]
  have hnumber : number? false (Nat.toDigits 10 n ++ rest) =
      some (.number { whole := Nat.toDigits 10 n }, rest) := by
    rw [number?, Numeral.unsigned?_toDigits n h, Option.map_some]
  rw [← hnumber]
  cases hdigits : Nat.toDigits 10 n with
  | nil => exact absurd hdigits Nat.toDigits_ne_nil
  | cons digit digits =>
    apply next?_of_isDigit
    apply Nat.isDigit_of_mem_toDigits (b := 10) (n := n) (by decide) (by decide)
    rw [hdigits]
    exact List.mem_cons_self

end Lockstep.Json
