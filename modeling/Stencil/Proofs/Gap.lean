import Stencil.Item

/-!
# Gaps between the parts of a statement

A statement may be spread over several tags. What then stands between its parts is a gap: blank
texts, in any number. Whether a gap is content depends on the first item behind it.

## Main definitions

* `Stencil.Item.IsGap`: runs of blank texts.
* `Stencil.Item.next?`: the first item that is not blank.

## Main results

* `Stencil.Item.next?_eq_some_iff`: the first item that is not blank stands behind a gap.
* `Stencil.Item.gap_append_inj`: where a gap ends is determined.
-/

namespace Stencil

namespace Item

/-- The items of a keyword. -/
abbrev keyword (k : Keyword) : Item := token (.keyword k)

/-- The item of an identifier. -/
abbrev identifier (name : String) : Item := token (.identifier name)

/-- Blank texts only, in any number. -/
def IsGap (items : List Item) : Prop :=
  ∀ i ∈ items, i.isBlank = true

/-- The first item that is not blank. -/
def next? (items : List Item) : Option Item :=
  items.find? fun i => !i.isBlank

@[simp] theorem isGap_nil : IsGap [] := by
  simp [IsGap]

@[simp] theorem isGap_cons {i : Item} {g : List Item} :
    IsGap (i :: g) ↔ i.isBlank = true ∧ IsGap g := by
  simp [IsGap]

@[simp] theorem isGap_append {g h : List Item} : IsGap (g ++ h) ↔ IsGap g ∧ IsGap h := by
  simp [IsGap, or_imp, forall_and]

theorem isBlank_text {s : String} : (text s).isBlank = Text.isBlankText s := rfl

@[simp] theorem isBlank_token (t : Token) : (token t).isBlank = false := rfl

@[simp] theorem isBlank_expression (content : String) : (expression content).isBlank = false := rfl

theorem next?_cons_of_isBlank {i : Item} (hi : i.isBlank = true) (items : List Item) :
    next? (i :: items) = next? items := by
  simp [next?, hi]

theorem next?_cons_of_not_isBlank {i : Item} (hi : i.isBlank = false) (items : List Item) :
    next? (i :: items) = some i := by
  simp [next?, hi]

theorem next?_gap {g : List Item} (hg : IsGap g) (items : List Item) :
    next? (g ++ items) = next? items := by
  induction g with
  | nil => rfl
  | cons i g ih =>
    rw [isGap_cons] at hg
    rw [List.cons_append, next?_cons_of_isBlank hg.1, ih hg.2]

/-- The first item that is not blank stands behind a run of blank texts. -/
theorem next?_eq_some_iff {items : List Item} {i : Item} :
    next? items = some i ↔ i.isBlank = false ∧ ∃ g rest, IsGap g ∧ items = g ++ i :: rest := by
  rw [next?, List.find?_eq_some_iff_append]
  constructor
  · rintro ⟨hi, g, rest, rfl, hg⟩
    exact ⟨by simpa using hi, g, rest, fun j hj => by simpa using hg j hj, rfl⟩
  · rintro ⟨hi, g, rest, hg, rfl⟩
    exact ⟨by simpa using hi, g, rest, rfl, fun j hj => by simp [hg j hj]⟩

/-- Where a run of blank texts ends is determined. -/
theorem gap_append_inj {g h : List Item} (hg : IsGap g) (hh : IsGap h) {i j : Item}
    (hi : i.isBlank = false) (hj : j.isBlank = false) {r t : List Item}
    (heq : g ++ i :: r = h ++ j :: t) : g = h ∧ i = j ∧ r = t := by
  induction g generalizing h with
  | nil =>
    cases h with
    | nil => simpa using heq
    | cons k h =>
      obtain ⟨rfl, -⟩ := List.cons.inj heq
      simp [hi] at hh
  | cons k g ih =>
    rw [isGap_cons] at hg
    cases h with
    | nil =>
      obtain ⟨rfl, -⟩ := List.cons.inj heq
      simp [hj] at hg
    | cons l h =>
      rw [isGap_cons] at hh
      obtain ⟨rfl, hrest⟩ := List.cons.inj heq
      obtain ⟨rfl, hij, hrt⟩ := ih hg.2 hh.2 hrest
      exact ⟨rfl, hij, hrt⟩

end Item

end Stencil
