/-!
# White space

The characters with the Unicode property `White_Space`, and trimming of them. Every character that
the standard library calls white space is among them. White space at an end of a text does not
matter once the text is trimmed.
-/

namespace Lockstep

/-- The character has the Unicode property `White_Space`. -/
def isBlank (c : Char) : Bool :=
  let n := c.toNat
  (0x09 ≤ n && n ≤ 0x0D) || n == 0x20 || n == 0x85 || n == 0xA0 || n == 0x1680 ||
    (0x2000 ≤ n && n ≤ 0x200A) || n == 0x2028 || n == 0x2029 || n == 0x202F || n == 0x205F ||
    n == 0x3000

theorem isBlank_of_isWhitespace {c : Char} (h : c.isWhitespace = true) : isBlank c = true := by
  simp only [Char.isWhitespace, Bool.or_eq_true, decide_eq_true_eq] at h
  rcases h with ((rfl | rfl) | rfl) | rfl <;> decide

/-- A text without the white space at its front. -/
def trimStart (cs : List Char) : List Char := cs.dropWhile isBlank

/-- A text without the white space at its two ends. -/
def trim (cs : List Char) : List Char :=
  ((trimStart cs).reverse.dropWhile isBlank).reverse

theorem trimStart_append_of_blank {bs : List Char} (h : ∀ c ∈ bs, isBlank c = true)
    (cs : List Char) : trimStart (bs ++ cs) = trimStart cs := by
  induction bs with
  | nil => rfl
  | cons b bs ih =>
    have hb : isBlank b = true := h b (by simp)
    simp only [trimStart, List.cons_append, List.dropWhile_cons, hb, if_true]
    exact ih fun c hc => h c (by simp [hc])

theorem trim_append_of_blank {bs : List Char} (h : ∀ c ∈ bs, isBlank c = true) (cs : List Char) :
    trim (cs ++ bs) = trim cs := by
  have hend (cs : List Char) : (cs ++ bs).reverse.dropWhile isBlank = cs.reverse.dropWhile isBlank := by
    rw [List.reverse_append]
    exact trimStart_append_of_blank (fun c hc => h c (List.mem_reverse.1 hc)) cs.reverse
  simp only [trim, trimStart, List.dropWhile_append]
  split
  · next hempty =>
    have hblank := trimStart_append_of_blank h []
    rw [List.append_nil, trimStart] at hblank
    rw [List.isEmpty_iff.1 hempty, hblank, trimStart, List.dropWhile_nil]
  · rw [hend]

theorem trim_blank_append {bs : List Char} (h : ∀ c ∈ bs, isBlank c = true) (cs : List Char) :
    trim (bs ++ cs) = trim cs := by
  rw [trim, trimStart_append_of_blank h, trim]

end Lockstep
