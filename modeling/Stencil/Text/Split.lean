/-!
# Splitting a text at a separator

`split sep` divides a text at every occurrence of the character `sep`. The pieces hold no
separator and there is always one more of them than there are separators, so the empty text has
one empty piece and two separators in a row have an empty piece between them.

## Main definitions

* `Stencil.Text.pieces`: the pieces of a list of characters.
* `Stencil.Text.split`: the pieces of a text.

## Main results

* `Stencil.Text.pieces_append`: a text without separator, then a separator, splits off as the
  first piece.
* `Stencil.Text.notMem_of_mem_pieces`: the pieces hold no separator.
-/

namespace Stencil.Text

/-- The pieces between the separators, empty ones included. -/
def pieces (sep : Char) : List Char → List (List Char)
  | [] => [[]]
  | c :: r =>
    if c = sep then [] :: pieces sep r
    else match pieces sep r with
      | [] => [[c]]
      | p :: ps => (c :: p) :: ps

/-- The pieces of a text between the separators. -/
def split (sep : Char) (s : String) : List String :=
  (pieces sep s.toList).map String.ofList

variable {sep : Char}

theorem pieces_ne_nil (s : List Char) : pieces sep s ≠ [] := by
  cases s with
  | nil => simp [pieces]
  | cons c r =>
    rw [pieces]
    split
    · simp
    · split <;> simp

/-- A text without separator is one piece. -/
theorem pieces_of_notMem {s : List Char} (h : sep ∉ s) : pieces sep s = [s] := by
  induction s with
  | nil => rfl
  | cons c r ih =>
    rw [List.mem_cons, not_or] at h
    rw [pieces, if_neg (Ne.symm h.1), ih h.2]

/-- A text without separator, then a separator: the text is the first piece. -/
theorem pieces_append {p : List Char} (h : sep ∉ p) (r : List Char) :
    pieces sep (p ++ sep :: r) = p :: pieces sep r := by
  induction p with
  | nil => simp [pieces]
  | cons c p ih =>
    rw [List.mem_cons, not_or] at h
    rw [List.cons_append, pieces, if_neg (Ne.symm h.1), ih h.2]

/-- A piece between separators has no separator in it. -/
theorem notMem_of_mem_pieces {s p : List Char} (h : p ∈ pieces sep s) : sep ∉ p := by
  induction s generalizing p with
  | nil =>
    rw [pieces, List.mem_singleton] at h
    simp [h]
  | cons c r ih =>
    rw [pieces] at h
    split at h
    · rcases List.mem_cons.1 h with rfl | hp
      · exact List.not_mem_nil
      · exact ih hp
    · rename_i hc
      split at h
      · rw [List.mem_singleton] at h
        simp [h, Ne.symm hc]
      · rename_i q ps heq
        rw [heq] at ih
        rcases List.mem_cons.1 h with rfl | hp
        · have hq := ih List.mem_cons_self
          simp [Ne.symm hc, hq]
        · exact ih (List.mem_cons_of_mem _ hp)

/-- A text without separator is not split. -/
theorem split_of_notMem {s : String} (h : sep ∉ s.toList) : split sep s = [s] := by
  rw [split, pieces_of_notMem h, List.map_singleton, String.ofList_toList]

end Stencil.Text
