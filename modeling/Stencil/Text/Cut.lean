/-!
# Cutting a text at a mark of two characters

A mark is two characters `a b` side by side. `cut? a b` divides a text at the leftmost mark into
what stands before it and what stands after it.

## Main definitions

* `Stencil.Text.cut?`: the two sides of the leftmost mark.

## Main results

* `Stencil.Text.cut?_eq_none_iff`: there is nothing to cut exactly when the mark does not occur.
* `Stencil.Text.cut?_eq_some_iff`: a cut is the one before which no mark starts.
-/

namespace Stencil.Text

/-- What stands before and after the leftmost `a b`, if it occurs. -/
def cut? (a b : Char) : List Char → Option (List Char × List Char)
  | [] => none
  | x :: r =>
    if x = a ∧ r.head? = some b then some ([], r.tail)
    else (cut? a b r).map fun p => (x :: p.1, p.2)

variable {a b : Char}

theorem eq_append_of_cut? {s p r : List Char} (h : cut? a b s = some (p, r)) :
    s = p ++ a :: b :: r := by
  induction s generalizing p with
  | nil => simp [cut?] at h
  | cons x t ih =>
    rw [cut?] at h
    split at h
    · rename_i hx
      obtain ⟨rfl, hb⟩ := hx
      cases t with
      | nil => simp at hb
      | cons y t => simp_all
    · obtain ⟨q, hq, he⟩ := Option.map_eq_some_iff.1 h
      obtain ⟨rfl, rfl⟩ := Prod.mk.inj he
      rw [ih (p := q.1) (by rw [hq])]
      rfl

/-- A cut leaves fewer characters behind it. -/
theorem length_lt_of_cut? {s p r : List Char} (h : cut? a b s = some (p, r)) :
    r.length < s.length := by
  rw [eq_append_of_cut? h]
  simp only [List.length_append, List.length_cons]
  omega

/-- Nothing is cut exactly when the mark does not occur. -/
theorem cut?_eq_none_iff {s : List Char} : cut? a b s = none ↔ ¬ [a, b] <:+: s := by
  induction s with
  | nil => simp [cut?]
  | cons x t ih =>
    rw [cut?, List.infix_cons_iff, not_or, ← ih]
    split
    · rename_i hx
      obtain ⟨rfl, hb⟩ := hx
      cases t with
      | nil => simp at hb
      | cons y t => simp_all
    · rename_i hx
      rw [Option.map_eq_none_iff, iff_and_self]
      rintro - ⟨u, hu⟩
      cases t <;> simp_all

/-- A cut is at the leftmost mark: none lies in what stands before it, even when that part is
continued by the first character of the mark. -/
theorem cut?_eq_some_iff {s p r : List Char} :
    cut? a b s = some (p, r) ↔ s = p ++ a :: b :: r ∧ ¬ [a, b] <:+: p ++ [a] := by
  constructor
  · intro h
    refine ⟨eq_append_of_cut? h, ?_⟩
    induction s generalizing p with
    | nil => simp [cut?] at h
    | cons x t ih =>
      rw [cut?] at h
      split at h
      · obtain ⟨rfl, rfl⟩ := Prod.mk.inj (Option.some.inj h)
        intro hi
        have := hi.length_le
        simp at this
      · rename_i hx
        obtain ⟨q, hq, he⟩ := Option.map_eq_some_iff.1 h
        obtain ⟨rfl, rfl⟩ := Prod.mk.inj he
        rw [List.cons_append, List.infix_cons_iff, not_or]
        refine ⟨?_, ih (by rw [hq])⟩
        rintro ⟨u, hu⟩
        have ht := eq_append_of_cut? (p := q.1) (r := q.2) (by rw [hq])
        apply hx
        cases hq1 : q.1 with
        | nil => simp_all
        | cons y l => simp_all
  · rintro ⟨rfl, hp⟩
    induction p with
    | nil => simp [cut?]
    | cons x p ih =>
      rw [List.cons_append, List.infix_cons_iff, not_or] at hp
      rw [List.cons_append, cut?, if_neg, ih hp.2]
      · rfl
      · rintro ⟨rfl, hb⟩
        apply hp.1
        cases p <;> simp_all

end Stencil.Text
