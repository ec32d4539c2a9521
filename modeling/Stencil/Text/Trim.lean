import Stencil.Text.CharClass

/-!
# Blank text and trimming

A text is blank when every character of it is blank; the empty text is. Trimming takes the blank
characters off both ends of a text and leaves those inside it.

## Main definitions

* `Stencil.Text.isBlankText`: texts without a visible character.
* `Stencil.Text.trim`: a text without the blanks at its ends.
* `Stencil.Text.IsTrimmed`: texts that start and end with a visible character, or are empty.

## Main results

* `Stencil.Text.isTrimmed_trimChars`: what trimming leaves is trimmed.
* `Stencil.Text.trimChars_of_isTrimmed`: a trimmed text is left as it stands.
-/

namespace Stencil.Text

/-- Whether every character of a text is blank. -/
def isBlankText (s : String) : Bool :=
  s.toList.all isBlank

/-- The characters without the blanks at the end. -/
def trimEnd (cs : List Char) : List Char :=
  (cs.reverse.dropWhile isBlank).reverse

/-- The characters without the blanks at both ends. -/
def trimChars (cs : List Char) : List Char :=
  trimEnd (cs.dropWhile isBlank)

/-- A text without the blanks at both ends. -/
def trim (s : String) : String :=
  String.ofList (trimChars s.toList)

/-- Neither the first nor the last character is blank. -/
def IsTrimmed (cs : List Char) : Prop :=
  (∀ c ∈ cs.head?, isBlank c = false) ∧ ∀ c ∈ cs.getLast?, isBlank c = false

theorem trimEnd_append_singleton (cs : List Char) {c : Char} (h : isBlank c = false) :
    trimEnd (cs ++ [c]) = cs ++ [c] := by
  simp [trimEnd, h]

/-- Trimming the end drops a run of blanks. -/
theorem exists_eq_trimEnd_append (cs : List Char) :
    ∃ b, (∀ c ∈ b, isBlank c = true) ∧ cs = trimEnd cs ++ b := by
  refine ⟨(cs.reverse.takeWhile isBlank).reverse, fun c hc => ?_, ?_⟩
  · have := List.all_takeWhile (p := isBlank) (l := cs.reverse)
    exact List.all_eq_true.1 this c (List.mem_reverse.1 hc)
  · rw [trimEnd, ← List.reverse_append, List.takeWhile_append_dropWhile, List.reverse_reverse]

theorem getLast?_trimEnd (cs : List Char) : ∀ c ∈ (trimEnd cs).getLast?, isBlank c = false := by
  intro c hc
  rw [trimEnd, List.getLast?_reverse] at hc
  have := List.head?_dropWhile_not isBlank cs.reverse
  rw [Option.mem_def] at hc
  simpa [hc] using this

theorem head?_trimEnd {cs : List Char} (h : ∀ c ∈ cs.head?, isBlank c = false) :
    ∀ c ∈ (trimEnd cs).head?, isBlank c = false := by
  obtain ⟨b, -, hb⟩ := exists_eq_trimEnd_append cs
  intro c hc
  refine h c ?_
  rw [hb, List.head?_append]
  rw [Option.mem_def] at hc
  simp [hc]

/-- What trimming leaves starts and ends with a visible character. -/
theorem isTrimmed_trimChars (cs : List Char) : IsTrimmed (trimChars cs) := by
  refine ⟨head?_trimEnd fun c hc => ?_, getLast?_trimEnd _⟩
  have := List.head?_dropWhile_not isBlank cs
  rw [Option.mem_def] at hc
  simpa [hc] using this

/-- A text that starts and ends with a visible character is left as it stands. -/
theorem trimChars_of_isTrimmed {cs : List Char} (h : IsTrimmed cs) : trimChars cs = cs := by
  have hd : cs.dropWhile isBlank = cs := by
    cases cs with
    | nil => rfl
    | cons c r => simp [h.1 c (by simp)]
  rw [trimChars, hd]
  rcases List.eq_nil_or_concat cs with rfl | ⟨r, c, rfl⟩
  · rfl
  · rw [List.concat_eq_append]
    exact trimEnd_append_singleton r (h.2 c (by simp))

end Stencil.Text
