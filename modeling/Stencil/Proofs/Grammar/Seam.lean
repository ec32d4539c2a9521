import Stencil.Proofs.Grammar

/-!
# Derivations one after the other

Two sequences of items that are bodies make a body when they stand one after the other: every block
of the first one ends in its own brace, so what follows the brace cannot go on with it, and a body
does not start with `else`. The tree is that of the two bodies joined. It is the same tree when the
text on the left of the seam and the one on the right are a single item.

## Main results

* `Stencil.Grammar.Derives.append`: two bodies one after the other.
* `Stencil.Grammar.Derives.append_texts`: the same, with the two texts at the seam in one item.
-/

namespace Stencil.Grammar

open Item

/-- Two bodies one after the other are a body. -/
theorem Derives.append {items items' : List Item} {ns ms : Body} (h : Derives items (.body ns))
    (h' : Derives items' (.body ms)) : Derives (items ++ items') (.body (ns.join ms)) := by
  generalize hform : Form.body ns = form at h
  induction h generalizing ns with
  | empty =>
    cases hform
    exact h'
  | text s _ ih =>
    cases hform
    rw [Body.prependText_join]
    exact .text s (ih rfl)
  | expression content _ ih =>
    cases hform
    rw [Body.cons_join (.inl rfl)]
    exact .expression content (ih rfl)
  | block hn _ _ ih =>
    cases hform
    rw [Body.cons_join (.inl hn.isText_eq_false), List.append_assoc]
    exact .block hn (ih rfl)
  | _ => cases hform

/-! ### The last item -/

/-- The arms of a conditional end in a brace, unless there are none. -/
theorem Derives.exists_rightBrace_cons_eq {items : List Item} {branches : List Branch}
    {alternative : Option Body} (h : Derives items (.arms branches alternative)) :
    ∃ own, token .rightBrace :: items = own ++ [token .rightBrace] := by
  generalize hform : Form.arms branches alternative = form at h
  induction h generalizing branches with
  | noArm => exact ⟨[], rfl⟩
  | @elseArm g h items _ _ _ _ =>
    exact ⟨token .rightBrace :: (g ++ keyword .elseWord :: (h ++ token .leftBrace :: items)),
      by simp⟩
  | @elseIfArm g h opening items _ _ _ _ _ _ _ _ _ _ _ ih =>
    cases hform
    obtain ⟨own, hown⟩ := ih rfl
    exact ⟨token .rightBrace :: (g ++ keyword .elseWord :: (h ++ keyword .ifWord ::
      (opening ++ (items ++ own)))), by simp [hown]⟩
  | _ => cases hform

/-- A block ends in a brace. -/
theorem Derives.exists_eq_append_rightBrace {items : List Item} {n : Node}
    (h : Derives items (.block n)) : ∃ own, items = own ++ [token .rightBrace] := by
  cases h with
  | @loop opening own => exact ⟨keyword .forWord :: (opening ++ own), by simp⟩
  | @conditional opening own _ _ _ _ _ _ _ ht =>
    obtain ⟨tail, htail⟩ := ht.exists_rightBrace_cons_eq
    exact ⟨keyword .ifWord :: (opening ++ (own ++ tail)), by simp [htail]⟩

/-- A text at the end of the items of a body is at the end of the body. -/
theorem Derives.exists_eq_appendText {items : List Item} {s : String} {ns : Body}
    (h : Derives (items ++ [Item.text s]) (.body ns)) :
    ∃ ms, Derives items (.body ms) ∧ ns = ms.appendText s := by
  generalize hitems : items ++ [Item.text s] = all at h
  generalize hform : Form.body ns = form at h
  induction h generalizing items ns with
  | empty => simp at hitems
  | text t h ih =>
    cases hform
    rcases List.append_eq_cons_iff.1 hitems with ⟨rfl, hlast⟩ | ⟨before, rfl, hrest⟩
    · obtain ⟨⟨⟩, rfl⟩ := List.cons.inj hlast
      obtain rfl := derives_nil_iff.1 h
      exact ⟨[], .empty, rfl⟩
    · obtain ⟨ms, hms, rfl⟩ := ih hrest.symm rfl
      exact ⟨_, .text t hms, by rw [Body.appendText_prependText]⟩
  | expression content h ih =>
    cases hform
    rcases List.append_eq_cons_iff.1 hitems with ⟨rfl, hlast⟩ | ⟨before, rfl, hrest⟩
    · cases hlast
    · obtain ⟨ms, hms, rfl⟩ := ih hrest.symm rfl
      exact ⟨_, .expression content hms, by rw [Body.appendText_cons (.inl rfl)]⟩
  | @block own rest n _ hn h _ ih =>
    cases hform
    -- The text is not the last item of the block, which is a brace.
    rcases List.eq_nil_or_concat rest with rfl | ⟨before, last, rfl⟩
    · obtain ⟨own, rfl⟩ := hn.exists_eq_append_rightBrace
      simp at hitems
    · rw [List.concat_eq_append] at hitems ih
      rw [← List.append_assoc] at hitems
      obtain ⟨rfl, hlast⟩ := List.append_inj' hitems rfl
      obtain ⟨ms, hms, rfl⟩ := ih (by rw [hlast]) rfl
      exact ⟨_, .block hn hms, by rw [Body.appendText_cons (.inl hn.isText_eq_false)]⟩
  | _ => cases hform

/-! ### Texts at the seam -/

/-- Two bodies one after the other, where the text at the end of the first one and the text at the
beginning of the second one are one item. -/
theorem Derives.append_texts {items items' : List Item} {s t : String} {ns ms : Body}
    (h : Derives (items ++ [Item.text s]) (.body ns))
    (h' : Derives (Item.text t :: items') (.body ms)) :
    Derives (items ++ Item.text (s ++ t) :: items') (.body (ns.join ms)) := by
  obtain ⟨ns, hns, rfl⟩ := h.exists_eq_appendText
  obtain ⟨ms, hms, rfl⟩ := derives_text_cons_iff.1 h'
  rw [← Body.join_prependText, Body.prependText_prependText]
  exact hns.append (.text (s ++ t) hms)

end Stencil.Grammar
