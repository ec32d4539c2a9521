import Stencil.Proofs.Grammar.Completion
import Stencil.Proofs.Segment.Canonical
import Stencil.Proofs.Token.Name

/-!
# Well-formed bodies

Not every tree of nodes can be the tree of a source: texts that are empty or that follow each other,
paths with blanks around them, conditionals without a branch, and conditions that are no single word
do not come out of reading. A body is well-formed when it has none of these at any depth. Reading
gives well-formed bodies only, since the items of a source hold no word that is not a name, and a
derivation from such items puts no other tree together.

## Main definitions

* `Stencil.Node.WellFormed`, `Stencil.Body.WellFormed`: trees without these accidents.
* `Stencil.Item.IsProper`: items that a source can have.

## Main results

* `Stencil.Grammar.Derives.wellFormed`: proper items have well-formed trees only.
* `Stencil.Body.wellFormed_of_ofSource`: the body of a source is well-formed.
-/

namespace Stencil

/-! ### Well-formed trees -/

mutual

/-- A node that reading can give. -/
def Node.WellFormed : Node → Prop
  | .text s => s ≠ ""
  | .expression path => Text.IsTrimmed path.toList ∧ ¬ ['%', '>'] <:+: path.toList
  | .conditional branches alternative =>
    branches ≠ [] ∧ Branch.AllWellFormed branches ∧ Body.WellFormedOption alternative
  | .loop name collection body =>
    Token.IsName name ∧ Token.IsName collection ∧ Body.WellFormed body

/-- Branches whose conditions are names and whose bodies are well-formed. -/
def Branch.AllWellFormed : List Branch → Prop
  | [] => True
  | ⟨condition, body⟩ :: branches =>
    Token.IsName condition ∧ Body.WellFormed body ∧ Branch.AllWellFormed branches

/-- An alternative that is well-formed if there is one. -/
def Body.WellFormedOption : Option Body → Prop
  | none => True
  | some body => Body.WellFormed body

/-- A body of well-formed nodes in which no two texts follow each other. -/
def Body.WellFormed : Body → Prop
  | [] => True
  | n :: ns =>
    n.WellFormed ∧ Body.WellFormed ns ∧ (n.isText = true → ∀ m ∈ ns.head?, m.isText = false)

end

/-- A node that is no text may stand in front of every well-formed body. -/
theorem Body.WellFormed.cons {n : Node} {ns : Body} (hn : n.WellFormed) (htext : n.isText = false)
    (h : Body.WellFormed ns) : Body.WellFormed (n :: ns) :=
  ⟨hn, h, fun ht => absurd (htext.symm.trans ht) Bool.false_ne_true⟩

/-- Text in front of a well-formed body leaves it well-formed. -/
theorem Body.WellFormed.prependText {ns : Body} (h : Body.WellFormed ns) (s : String) :
    Body.WellFormed (ns.prependText s) := by
  by_cases hs : s = ""
  · subst hs
    rwa [prependText_empty]
  obtain ⟨t, ms, he, hns⟩ := exists_prependText_eq hs ns
  have hst : s ++ t ≠ "" := by simp [hs]
  rw [he]
  rcases hns with rfl | ⟨-, rfl, hhead⟩
  · obtain ⟨-, hms, hmeet⟩ := h
    exact ⟨hst, hms, fun _ => hmeet rfl⟩
  · exact ⟨hst, h, fun _ => hhead⟩

/-- What the grammar can derive is well-formed as a body, a block or the arms of a conditional. -/
def Grammar.Form.WellFormed : Grammar.Form → Prop
  | .body ns => Body.WellFormed ns
  | .block n => n.WellFormed
  | .arms branches alternative =>
    Branch.AllWellFormed branches ∧ Body.WellFormedOption alternative

/-! ### Proper items -/

/-- An item that a source can have: an expression whose content does not close its tag, or a token
that is proper. -/
def Item.IsProper : Item → Prop
  | text _ => True
  | expression content => ¬ ['%', '>'] <:+: content.toList
  | token t => t.IsProper

/-- A proper segment has proper items only. -/
theorem Item.isProper_of_mem_ofSegment {g : Segment} (h : g.IsProper) :
    ∀ item ∈ ofSegment g, item.IsProper := by
  cases g with
  | text s => exact List.forall_mem_singleton.2 trivial
  | expression content => exact List.forall_mem_singleton.2 h
  | code content => exact List.forall_mem_map.2 (Token.isProper_of_mem_ofCode h.1)

theorem Item.ofSource_eq_ok_iff {source : String} {items : List Item} :
    ofSource source = .ok items ↔
      ∃ segments, Segment.ofSource source = .ok segments ∧ segments.flatMap ofSegment = items := by
  rw [ofSource]
  cases Segment.ofSource source with
  | error fault => simp [bind, Except.bind]
  | ok segments => simp [bind, Except.bind, pure, Except.pure]

/-- The items of a source are proper. -/
theorem Item.isProper_of_mem_ofSource {source : String} {items : List Item}
    (h : ofSource source = .ok items) : ∀ item ∈ items, item.IsProper := by
  obtain ⟨segments, hsegments, rfl⟩ := ofSource_eq_ok_iff.1 h
  intro item hitem
  obtain ⟨g, hg, hmem⟩ := List.mem_flatMap.1 hitem
  exact isProper_of_mem_ofSegment ((Segment.canonical_of_ofChars hsegments).isProper g hg) item hmem

/-! ### Derivations from proper items -/

namespace Grammar

open Item

theorem Opening.identifier_mem {c : String} {items : List Item} (h : Opening c items) :
    identifier c ∈ items := by
  obtain ⟨-, hc, -⟩ := h
  cases hc <;> simp

theorem LoopOpening.identifier_mem {x c : String} {items : List Item} (h : LoopOpening x c items) :
    identifier x ∈ items ∧ identifier c ∈ items := by
  obtain ⟨-, hc, -⟩ := h
  cases hc <;> simp

/-- Proper items have well-formed trees only. -/
theorem Derives.wellFormed {items : List Item} {form : Form} (h : Derives items form)
    (hitems : ∀ item ∈ items, item.IsProper) : form.WellFormed := by
  induction h with
  | empty => trivial
  | text s h ih =>
    exact (ih fun item hi => hitems item (.tail _ hi)).prependText s
  | expression content h ih =>
    obtain ⟨hcontent, hrest⟩ := List.forall_mem_cons.1 hitems
    have hclose : ¬ ['%', '>'] <:+: (Text.trim content).toList := by
      rw [Text.trim, String.toList_ofList]
      exact fun hi => hcontent (hi.trans (Text.trimChars_infix _))
    have htrimmed : Text.IsTrimmed (Text.trim content).toList := by
      rw [Text.trim, String.toList_ofList]
      exact Text.isTrimmed_trimChars _
    exact Body.WellFormed.cons ⟨htrimmed, hclose⟩ rfl (ih hrest)
  | block hn h ihn ih =>
    obtain ⟨hown, hrest⟩ := List.forall_mem_append.1 hitems
    exact Body.WellFormed.cons (ihn hown) hn.isText_eq_false (ih hrest)
  | loop ho h ih =>
    simp only [List.forall_mem_cons, List.forall_mem_append] at hitems
    obtain ⟨-, hopening, hbody, -⟩ := hitems
    obtain ⟨hx, hc⟩ := ho.identifier_mem
    exact ⟨hopening _ hx, hopening _ hc, ih hbody⟩
  | conditional ho h ht ih iht =>
    simp only [List.forall_mem_cons, List.forall_mem_append] at hitems
    obtain ⟨-, hopening, hbody, -, htail⟩ := hitems
    obtain ⟨hbranches, halternative⟩ := iht htail
    have hc := hopening _ ho.identifier_mem
    exact ⟨List.cons_ne_nil _ _, ⟨hc, ih hbody, hbranches⟩, halternative⟩
  | noArm => exact ⟨trivial, trivial⟩
  | elseArm hg hh hd ih =>
    simp only [List.forall_mem_cons, List.forall_mem_append] at hitems
    obtain ⟨-, -, -, -, hbody, -⟩ := hitems
    exact ⟨trivial, ih hbody⟩
  | elseIfArm hg hh ho hd ht ih iht =>
    simp only [List.forall_mem_cons, List.forall_mem_append] at hitems
    obtain ⟨-, -, -, -, hopening, hbody, -, htail⟩ := hitems
    obtain ⟨hbranches, halternative⟩ := iht htail
    exact ⟨⟨hopening _ ho.identifier_mem, ih hbody, hbranches⟩, halternative⟩

end Grammar

/-! ### Reading a source -/

theorem Body.ofSource_eq_ok_iff {source : String} {ns : Body} :
    ofSource source = .ok ns ↔
      ∃ items, Item.ofSource source = .ok items ∧ Grammar.Derives items (.body ns) := by
  rw [ofSource]
  cases h : Item.ofSource source with
  | error fault => simp [bind, Except.bind]
  | ok items => simp [bind, Except.bind, ofItems_eq_ok_iff]

/-- Reading a source gives a well-formed body. -/
theorem Body.wellFormed_of_ofSource {source : String} {ns : Body} (h : ofSource source = .ok ns) :
    Body.WellFormed ns := by
  obtain ⟨items, hitems, hderives⟩ := ofSource_eq_ok_iff.1 h
  exact hderives.wellFormed (Item.isProper_of_mem_ofSource hitems)

end Stencil
