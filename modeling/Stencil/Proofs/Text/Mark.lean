import Stencil.Text.Cut
import Stencil.Text.Trim

/-!
# Where a mark occurs

A mark is two characters side by side, and it can come about at a seam where one text ends and the
next one starts. When the two characters differ, the first of them at the end of a text makes no
mark, and a character that is in no mark keeps the texts on its two sides apart.

## Main results

* `Stencil.Text.mark_infix_concat_iff`, `Stencil.Text.mark_infix_append_cons_iff`,
  `Stencil.Text.mark_infix_append_iff`: marks across a seam.
* `Stencil.Text.cut?_append_mark`: the leftmost mark is behind a text without marks.
* `Stencil.Text.trimChars_infix`: trimming makes no mark.
-/

namespace Stencil.Text

variable {a b : Char}

/-! ### Seams -/

/-- The first character of a mark at the end of a text does not make the mark occur. -/
theorem mark_infix_concat_iff (hab : a ≠ b) {p : List Char} :
    [a, b] <:+: p ++ [a] ↔ [a, b] <:+: p := by
  rw [List.infix_concat_iff, or_iff_right_iff_imp]
  rintro ⟨u, hu⟩
  have hlast := congrArg List.getLast? hu
  simp only [List.getLast?_append, List.getLast?_cons_cons, List.getLast?_singleton,
    Option.some_or, Option.some.injEq] at hlast
  exact absurd hlast.symm hab

/-- A mark behind a character that does not start it. -/
theorem mark_infix_cons_iff {c : Char} (ha : c ≠ a) {q : List Char} :
    [a, b] <:+: c :: q ↔ [a, b] <:+: q := by
  rw [List.infix_cons_iff, or_iff_right_iff_imp]
  rintro ⟨u, hu⟩
  cases hu
  exact absurd rfl ha

/-- A character that is in no mark keeps apart what stands on its two sides. -/
theorem mark_infix_append_cons_iff {c : Char} (ha : c ≠ a) (hb : c ≠ b) {p q : List Char} :
    [a, b] <:+: p ++ c :: q ↔ [a, b] <:+: p ∨ [a, b] <:+: q := by
  induction p with
  | nil => simp [mark_infix_cons_iff ha]
  | cons d p ih =>
    rw [List.cons_append, List.infix_cons_iff, List.infix_cons_iff, ih, or_assoc]
    -- A mark at the very beginning lies in `d :: p`, since `c` is not its second character.
    have hstart : [a, b] <+: d :: (p ++ c :: q) ↔ [a, b] <+: d :: p := by
      cases p with
      | nil => simp [List.cons_prefix_cons, hb.symm]
      | cons e p => simp [List.cons_prefix_cons]
    rw [hstart]

/-- A mark in two texts side by side lies in one of them or across the seam. -/
theorem mark_infix_append_iff {p q : List Char} :
    [a, b] <:+: p ++ q ↔
      [a, b] <:+: p ∨ [a, b] <:+: q ∨ p.getLast? = some a ∧ q.head? = some b := by
  induction p with
  | nil => simp
  | cons c p ih =>
    rw [List.cons_append, List.infix_cons_iff, List.infix_cons_iff, ih]
    cases p with
    | nil =>
      have hstart : [a, b] <+: c :: ([] ++ q) ↔ [c].getLast? = some a ∧ q.head? = some b := by
        cases q <;> simp [List.cons_prefix_cons, @eq_comm _ a, @eq_comm _ b]
      rw [hstart]
      simp [List.cons_prefix_cons, or_comm]
    | cons d p =>
      have hstart : [a, b] <+: c :: (d :: p ++ q) ↔ [a, b] <+: c :: d :: p := by
        simp [List.cons_prefix_cons]
      rw [hstart, List.getLast?_cons_cons, or_assoc]

/-! ### Cutting at the leftmost mark -/

/-- A text without the mark, written in front of it, is what a cut leaves before it. -/
theorem cut?_append_mark (hab : a ≠ b) {p : List Char} (hp : ¬ [a, b] <:+: p) (r : List Char) :
    cut? a b (p ++ a :: b :: r) = some (p, r) :=
  cut?_eq_some_iff.2 ⟨rfl, (not_congr (mark_infix_concat_iff hab)).2 hp⟩

/-- What a cut leaves before the mark does not contain it. -/
theorem not_mark_infix_of_cut? (hab : a ≠ b) {s p r : List Char}
    (h : cut? a b s = some (p, r)) : ¬ [a, b] <:+: p :=
  (not_congr (mark_infix_concat_iff hab)).1 (cut?_eq_some_iff.1 h).2

/-! ### Trimming -/

/-- Trimming takes characters off the two ends and leaves a part of the text. -/
theorem trimChars_infix (s : List Char) : trimChars s <:+: s := by
  obtain ⟨e, -, he⟩ := exists_eq_trimEnd_append (s.dropWhile isBlank)
  refine ⟨s.takeWhile isBlank, e, ?_⟩
  rw [trimChars, List.append_assoc, ← he, List.takeWhile_append_dropWhile]

end Stencil.Text
