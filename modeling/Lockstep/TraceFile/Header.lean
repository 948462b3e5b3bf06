import Lockstep.Text.Blank

/-!
# Comment headers

A harness may begin a trace file with lines of comment: lines whose first character, white space apart,
is a number sign. `stripHeader` drops them. What is left does not begin with a comment
(`not_comment_stripHeader`), and is a part of the text's end (`stripHeader_suffix`).
-/

namespace Lockstep.TraceFile

/-- What stands behind the first line end of a text; nothing if there is none. -/
def afterLine (cs : List Char) : List Char := (cs.dropWhile (· != '\n')).drop 1

theorem afterLine_suffix (cs : List Char) : afterLine cs <:+ cs :=
  (List.drop_suffix 1 _).trans (List.dropWhile_suffix _)

/-- A text without the comment lines at its front. White space before what is left stays. -/
def stripHeader (cs : List Char) : List Char :=
  match _h : trimStart cs with
  | '#' :: rest => stripHeader (afterLine rest)
  | _ => cs
termination_by cs.length
decreasing_by
  have line := (afterLine_suffix rest).length_le
  have blank := (List.dropWhile_suffix isBlank (l := cs)).length_le
  simp only [trimStart] at _h
  rw [_h, List.length_cons] at blank
  omega

theorem stripHeader_of_comment {cs rest : List Char} (h : trimStart cs = '#' :: rest) :
    stripHeader cs = stripHeader (afterLine rest) := by
  rw [stripHeader.eq_def]
  split
  · next rest' h' =>
    rw [h] at h'
    cases h'
    rfl
  · next hbare => exact absurd h (hbare rest)

theorem stripHeader_of_bare {cs : List Char} (h : ∀ rest, trimStart cs ≠ '#' :: rest) :
    stripHeader cs = cs := by
  rw [stripHeader.eq_def]
  split
  · next rest h' => exact absurd h' (h rest)
  · rfl

theorem stripHeader_suffix (cs : List Char) : stripHeader cs <:+ cs := by
  fun_induction stripHeader cs with
  | case1 cs rest h ih =>
    have blank : '#' :: rest <:+ cs := h ▸ List.dropWhile_suffix _
    exact ih.trans ((afterLine_suffix rest).trans ((List.suffix_cons _ _).trans blank))
  | case2 cs h => exact List.suffix_refl cs

/-- What is left does not begin with a comment. -/
theorem not_comment_stripHeader (cs rest : List Char) :
    trimStart (stripHeader cs) ≠ '#' :: rest := by
  fun_induction stripHeader cs with
  | case1 cs rest' h ih => exact ih
  | case2 cs h => exact h rest

end Lockstep.TraceFile
