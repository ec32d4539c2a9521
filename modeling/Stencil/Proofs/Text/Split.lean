import Stencil.Text.Split

/-!
# Pieces around a separator

A separator between two texts divides their pieces: those of the first text come before those of the
second one. So a text without separator that is put behind a separator is the last piece, and one
that is put in place of everything before the first separator is the first piece; the other pieces
stay as they are.

## Main results

* `Stencil.Text.split_append_sep_append`, `Stencil.Text.split_append_sep`: what is put behind a
  separator.
* `Stencil.Text.split_intercalate`: texts that are joined by separators.
* `Stencil.Text.split_append_dropWhile`: another first piece.
-/

namespace Stencil.Text

variable {sep : Char}

/-- A separator divides the pieces of a text into those before it and those behind it. -/
theorem pieces_append_cons (s r : List Char) :
    pieces sep (s ++ sep :: r) = pieces sep s ++ pieces sep r := by
  induction s with
  | nil => simp [pieces]
  | cons c s ih =>
    rw [List.cons_append, pieces, pieces, ih]
    split
    · rfl
    · cases h : pieces sep s with
      | nil => exact absurd h (pieces_ne_nil s)
      | cons p ps => rfl

theorem split_ne_nil (sep : Char) (s : String) : split sep s ≠ [] := by
  rw [split, Ne, List.map_eq_nil_iff]
  exact pieces_ne_nil s.toList

/-- Only the empty text has one piece that is empty. -/
theorem eq_nil_of_pieces_eq {s : List Char} (h : pieces sep s = [[]]) : s = [] := by
  cases s with
  | nil => rfl
  | cons c r =>
    rw [pieces] at h
    split at h
    · exact absurd (List.cons.inj h).2 (pieces_ne_nil r)
    · cases hr : pieces sep r with
      | nil => simp [hr] at h
      | cons p ps => simp [hr] at h

theorem split_ne_singleton_empty {s : String} (h : s ≠ "") : split sep s ≠ [""] := by
  intro hs
  obtain ⟨p, hp, hempty⟩ := List.map_eq_singleton_iff.1 hs
  obtain rfl : p = [] := by simpa using congrArg String.toList hempty
  exact h (String.toList_inj.1 (eq_nil_of_pieces_eq hp))

/-- The pieces of two texts with a separator between them. -/
theorem split_append_sep_append (s r : String) :
    split sep (s ++ String.singleton sep ++ r) = split sep s ++ split sep r := by
  have hchars : (s ++ String.singleton sep ++ r).toList = s.toList ++ sep :: r.toList := by
    simp
  rw [split, hchars, pieces_append_cons, List.map_append, split, split]

/-- A name behind a separator is the last piece. -/
theorem split_append_sep {name : String} (h : sep ∉ name.toList) (s : String) :
    split sep (s ++ String.singleton sep ++ name) = split sep s ++ [name] := by
  rw [split_append_sep_append, split_of_notMem h]

/-- Texts without separator, joined by separators, are the pieces of what is joined. -/
theorem split_intercalate {names : List String} (hne : names ≠ [])
    (h : ∀ name ∈ names, sep ∉ name.toList) :
    split sep (String.intercalate (String.singleton sep) names) = names := by
  induction names with
  | nil => exact absurd rfl hne
  | cons name names ih =>
    obtain ⟨hname, hnames⟩ := List.forall_mem_cons.1 h
    cases names with
    | nil => rw [String.intercalate_singleton, split_of_notMem hname]
    | cons next names =>
      rw [String.intercalate_cons_cons, split_append_sep_append, split_of_notMem hname,
        ih (List.cons_ne_nil next names) hnames]
      rfl

/-- A text in place of everything before the first separator is the first piece. -/
theorem pieces_append_dropWhile {p : List Char} (h : sep ∉ p) (s : List Char) :
    pieces sep (p ++ s.dropWhile (· ≠ sep)) = p :: (pieces sep s).tail := by
  induction s with
  | nil =>
    rw [List.dropWhile_nil, List.append_nil, pieces_of_notMem h]
    rfl
  | cons c r ih =>
    rw [pieces]
    by_cases hc : c = sep
    · rw [List.dropWhile_cons_of_neg (by simp [hc]), hc, pieces_append h, if_pos rfl,
        List.tail_cons]
    · rw [List.dropWhile_cons_of_pos (by simp [hc]), ih, if_neg hc]
      cases hr : pieces sep r with
      | nil => exact absurd hr (pieces_ne_nil r)
      | cons q qs => rfl

/-- A name in place of everything before the first separator is the first piece. -/
theorem split_append_dropWhile {name : String} (h : sep ∉ name.toList) (s : String) :
    split sep (name ++ String.ofList (s.toList.dropWhile (· ≠ sep))) =
      name :: (split sep s).tail := by
  rw [split, String.toList_append, String.toList_ofList, pieces_append_dropWhile h, List.map_cons,
    String.ofList_toList, List.map_tail, split]

end Stencil.Text
