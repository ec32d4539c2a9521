import Mathlib.Control.Monad.Basic
import Stencil.Proofs.Progress
import Stencil.Proofs.Reader
import Stencil.Template

/-!
# The layout of a statement

A statement can be written in one tag or be spread over several ones, with blank text between them,
and the condition of `if` and the header of `for` can stand in parentheses. None of this matters to
the tree. Blank text belongs to a statement when the nearest item in front of it is a token inside a
statement, or when it stands between a `}` and an `else`; the normal form of a sequence of items has
neither such text nor these parentheses. A sequence and its normal form have the same tree or the
same fault.

Every item that is not blank determines what kind of reader there is behind it
(`Stencil.Reader.IsBehind`). This is the invariant that tells from the items alone which texts a
reading skips.

## Main definitions

* `Stencil.Item.isGlue`, `Stencil.Item.dropGlue`: blank texts that belong to a statement.
* `Stencil.Item.dropParens`: parentheses around conditions and the headers of loops.
* `Stencil.Item.normalize`: the normal form.

## Main results

* `Stencil.Progress.run_dropGlue`, `Stencil.Progress.run_dropParens`: the two steps of the normal
  form do not change the outcome of a reading.
* `Stencil.Item.normalize_gap`, `Stencil.Item.normalize_cut_tag`: blank text between the tags of a
  statement does not change the normal form, so neither does cutting a tag in two.
* `Stencil.Body.ofItems_eq_normalize_and_ofSource_eq`: items and sources with the same normal form
  are read alike.
-/

namespace Stencil

namespace Item

/-! ### Normal forms -/

/-- Whether blank text belongs to a statement, by the nearest items around it that are not blank. -/
def isGlue (before after : Option Item) : Bool :=
  match before with
  | some (token .leftBrace) => false
  | some (token .rightBrace) => after == some (keyword .elseWord)
  | some (token _) => true
  | _ => false

/-- The items behind the given one without the blank texts that belong to a statement. -/
def dropGlue (before : Option Item) : List Item → List Item
  | [] => []
  | i :: items =>
    if i.isBlank then
      if isGlue before (next? items) then dropGlue before items
      else i :: dropGlue before items
    else i :: dropGlue (some i) items

/-- The items without the parentheses of `if ( condition )` and `for ( name in collection )`. -/
def dropParens : List Item → List Item
  | token (.keyword .ifWord) :: token .leftParen :: token (.identifier c) :: token .rightParen ::
      items => keyword .ifWord :: identifier c :: dropParens items
  | token (.keyword .forWord) :: token .leftParen :: token (.identifier x) ::
      token (.keyword .inWord) :: token (.identifier c) :: token .rightParen :: items =>
    keyword .forWord :: identifier x :: keyword .inWord :: identifier c :: dropParens items
  | i :: items => i :: dropParens items
  | [] => []

/-- The normal form of a sequence of items. -/
def normalize (items : List Item) : List Item :=
  dropParens (dropGlue none items)

theorem dropGlue_cons_of_isGlue {before : Option Item} {i : Item} {items : List Item}
    (hi : i.isBlank = true) (hglue : isGlue before (next? items) = true) :
    dropGlue before (i :: items) = dropGlue before items := by
  rw [dropGlue, if_pos hi, if_pos hglue]

theorem dropGlue_cons_of_not_isGlue {before : Option Item} {i : Item} {items : List Item}
    (hi : i.isBlank = true) (hglue : ¬ isGlue before (next? items) = true) :
    dropGlue before (i :: items) = i :: dropGlue before items := by
  rw [dropGlue, if_pos hi, if_neg hglue]

theorem dropGlue_cons_of_not_isBlank {before : Option Item} {i : Item} {items : List Item}
    (hi : i.isBlank = false) : dropGlue before (i :: items) = i :: dropGlue (some i) items := by
  rw [dropGlue, if_neg (by simp [hi])]

/-! ### Blank text between the tags of a statement -/

/-- The nearest item that is not blank at the end of some items, or else the one in front of
them. -/
def last? (before : Option Item) (items : List Item) : Option Item :=
  items.foldl (fun j i => if i.isBlank then j else some i) before

/-- What is dropped from some items depends on what follows only through the next item that is not
blank. -/
theorem dropGlue_append_congr {rest rest' : List Item} (hnext : next? rest = next? rest')
    (before : Option Item) (items : List Item)
    (h : dropGlue (last? before items) rest = dropGlue (last? before items) rest') :
    dropGlue before (items ++ rest) = dropGlue before (items ++ rest') := by
  induction items generalizing before with
  | nil => exact h
  | cons i items ih =>
    have hnext' : next? (items ++ rest) = next? (items ++ rest') := by
      simp only [next?, List.find?_append] at hnext ⊢
      rw [hnext]
    rw [last?, List.foldl_cons] at h
    cases hi : i.isBlank with
    | true =>
      rw [if_pos hi] at h
      rw [List.cons_append, List.cons_append, dropGlue, dropGlue, if_pos hi, if_pos hi, hnext',
        ih before h]
    | false =>
      rw [if_neg (by simp [hi])] at h
      rw [List.cons_append, List.cons_append, dropGlue_cons_of_not_isBlank hi,
        dropGlue_cons_of_not_isBlank hi, ih (some i) h]

/-- Blank texts that belong to a statement are dropped. -/
theorem dropGlue_gap {before : Option Item} {g rest : List Item} (hg : IsGap g)
    (hglue : isGlue before (next? rest) = true) :
    dropGlue before (g ++ rest) = dropGlue before rest := by
  induction g with
  | nil => rfl
  | cons i g ih =>
    rw [isGap_cons] at hg
    have hnext : isGlue before (next? (g ++ rest)) = true := by rwa [next?_gap hg.2]
    rw [List.cons_append, dropGlue_cons_of_isGlue hg.1 hnext, ih hg.2]

/-- Blank texts inside a statement, or between a `}` and an `else`, do not change the normal
form. -/
theorem normalize_gap {front g rest : List Item} (hg : IsGap g)
    (hglue : isGlue (last? none front) (next? rest) = true) :
    normalize (front ++ (g ++ rest)) = normalize (front ++ rest) := by
  have hdrop := dropGlue_append_congr (next?_gap hg rest) none front (dropGlue_gap hg hglue)
  rw [normalize, normalize, hdrop]

/-- A tag that is cut in two between two tokens of a statement, with blank text between the two
parts, has the normal form of the whole tag. -/
theorem normalize_cut_tag {code code₁ code₂ blanks : String} {front back : List Segment}
    (hcode : Token.ofCode code = Token.ofCode code₁ ++ Token.ofCode code₂)
    (hblanks : Text.isBlankText blanks = true)
    (hglue : isGlue (last? none ((front ++ [Segment.code code₁]).flatMap ofSegment))
      (next? ((Segment.code code₂ :: back).flatMap ofSegment)) = true) :
    normalize ((front ++ Segment.code code₁ :: .text blanks :: .code code₂ :: back).flatMap
        ofSegment) =
      normalize ((front ++ Segment.code code :: back).flatMap ofSegment) := by
  have hgap : IsGap [text blanks] := isGap_cons.2 ⟨hblanks, isGap_nil⟩
  have hnormal := normalize_gap hgap hglue
  simpa [ofSegment, hcode] using hnormal

end Item

/-! ### Runs over normal forms -/

namespace Progress

open Item

/-- A step of a reading is one of its reader. -/
theorem exists_reader_step {p q : Progress} {i : Item} (h : p.step i = .ok q) :
    ∃ es, p.reader.step i = .ok (q.reader, es) := by
  cases hr : p.reader.step i with
  | error e => rw [step_of_error hr] at h; cases h
  | ok r =>
    rw [step_of_ok hr] at h
    cases hd : p.draft.applyAll r.2 with
    | error e => rw [hd] at h; cases h
    | ok d =>
      rw [hd] at h
      cases h
      exact ⟨r.2, rfl⟩

/-- Two runs over the same first item agree when they agree wherever that item leads to. -/
theorem run_cons_congr {p : Progress} {i : Item} {items items' : List Item}
    (h : ∀ q, p.step i = .ok q → q.run items = q.run items') :
    p.run (i :: items) = p.run (i :: items') := by
  rw [run_cons, run_cons]
  cases hp : p.step i with
  | error e => rfl
  | ok q => exact h q hp

/-- A blank text that belongs to a statement is skipped. -/
theorem run_cons_of_isGlue {p : Progress} {before : Option Item} {i : Item} {items : List Item}
    (hp : p.reader.IsBehind before) (hi : i.isBlank = true)
    (hglue : isGlue before (next? items) = true) : p.run (i :: items) = p.run items := by
  obtain ⟨r, d⟩ := p
  unfold isGlue at hglue
  split at hglue
  · cases hglue
  · -- Between `}` and `else` the reading holds back the text and drops it at `else`.
    obtain ⟨blanks, rfl⟩ := hp
    obtain ⟨-, g, rest, hg, rfl⟩ := next?_eq_some_iff.1 (beq_iff_eq.1 hglue)
    rw [run_closed_gap_else blanks d hg, ← List.cons_append,
      run_closed_gap_else blanks d (isGap_cons.2 ⟨hi, hg⟩)]
  · -- Behind every other token the reading is inside a header.
    rename_i t hl hr
    obtain ⟨h, rfl⟩ := (Reader.isBehind_token_iff hl hr).1 hp
    exact run_header_of_isBlank hi h d items
  · cases hglue

/-- Dropping the blank texts of statements does not change the outcome of a reading. -/
theorem run_dropGlue {p : Progress} {before : Option Item} (hp : p.reader.IsBehind before)
    (items : List Item) : p.run (dropGlue before items) = p.run items := by
  induction items generalizing p before with
  | nil => rfl
  | cons i items ih =>
    cases hi : i.isBlank with
    | true =>
      by_cases hglue : isGlue before (next? items) = true
      · rw [dropGlue_cons_of_isGlue hi hglue, run_cons_of_isGlue hp hi hglue]
        exact ih hp
      · rw [dropGlue_cons_of_not_isGlue hi hglue]
        refine run_cons_congr fun q hq => ih ?_
        obtain ⟨es, hes⟩ := exists_reader_step hq
        exact Reader.isBehind_of_step_of_isBlank hi hp hes
    | false =>
      rw [dropGlue_cons_of_not_isBlank hi]
      refine run_cons_congr fun q hq => ih ?_
      obtain ⟨es, hes⟩ := exists_reader_step hq
      exact Reader.isBehind_of_step hi hes

/-- Parentheses around a condition are skipped. -/
theorem run_condition_parens (arm : Arm) (c : String) (d : Draft) (items : List Item) :
    run ⟨.header (.condition arm), d⟩
        (token .leftParen :: identifier c :: token .rightParen :: items) =
      run ⟨.header (.condition arm), d⟩ (identifier c :: items) := by
  rw [run_header_of_inl rfl, run_header_of_inl rfl, run_header_of_inl rfl, run_header_of_inl rfl]

/-- Parentheses around the header of a loop are skipped. -/
theorem run_loopVariable_parens (x c : String) (d : Draft) (items : List Item) :
    run ⟨.header .loopVariable, d⟩ (token .leftParen :: identifier x :: keyword .inWord ::
        identifier c :: token .rightParen :: items) =
      run ⟨.header .loopVariable, d⟩
        (identifier x :: keyword .inWord :: identifier c :: items) := by
  rw [run_header_of_inl rfl, run_header_of_inl rfl, run_header_of_inl rfl, run_header_of_inl rfl,
    run_header_of_inl rfl]
  rw [run_header_of_inl rfl, run_header_of_inl rfl, run_header_of_inl rfl]

/-- Dropping parentheses does not change the outcome of a reading. -/
theorem run_dropParens (p : Progress) (items : List Item) :
    p.run (dropParens items) = p.run items := by
  induction items using dropParens.induct generalizing p with
  | case1 c items ih =>
    rw [dropParens]
    refine run_cons_congr fun q hq => ?_
    obtain ⟨es, hes⟩ := exists_reader_step hq
    obtain ⟨r, d⟩ := q
    obtain ⟨arm, rfl⟩ := Reader.exists_eq_condition_of_step hes
    rw [run_condition_parens]
    exact run_cons_congr fun q _ => ih q
  | case2 x c items ih =>
    rw [dropParens]
    refine run_cons_congr fun q hq => ?_
    obtain ⟨es, hes⟩ := exists_reader_step hq
    obtain ⟨r, d⟩ := q
    obtain rfl := Reader.eq_loopVariable_of_step hes
    rw [run_loopVariable_parens]
    exact run_cons_congr fun q _ => run_cons_congr fun q _ => run_cons_congr fun q _ => ih q
  | case3 i items hif hfor ih =>
    rw [dropParens]
    · exact run_cons_congr fun q _ => ih q
    · exact hif
    · exact hfor
  | case4 => rfl

end Progress

/-! ### Normal forms are read alike -/

/-- A sequence of items and its normal form have the same outcome. -/
theorem Body.ofItems_normalize (items : List Item) :
    ofItems (Item.normalize items) = ofItems items := by
  rw [Progress.ofItems_eq_run, Progress.ofItems_eq_run, Item.normalize, Progress.run_dropParens]
  have hstart : Progress.start.reader.IsBehind none := rfl
  exact Progress.run_dropGlue hstart items

/-- The body of a source depends on the normal form of its items only. -/
theorem Body.ofSource_eq_bind_normalize (source : String) :
    ofSource source = ((Item.ofSource source).map Item.normalize).bind ofItems := by
  rw [ofSource]
  cases Item.ofSource source with
  | error fault => rfl
  | ok items => exact (ofItems_normalize items).symm

/-- What a source renders to depends on its body only. -/
theorem Template.ofSource_bind_render (name source : String) (context : Option Datum) :
    ((ofSource name source).bind fun t => t.render context) =
      ((Body.ofSource source).mapError (·.inTemplate name)).bind fun ns => ns.evaluate context := by
  rw [ofSource]
  cases Body.ofSource source <;> rfl

/-- **The layout of statements does not matter.** Items and their normal form have the same tree or
the same fault. So two sources whose items have the same normal form have the same tree or the same
fault, and in every context they render the same. -/
theorem Body.ofItems_eq_normalize_and_ofSource_eq :
    (∀ items, ofItems items = ofItems (Item.normalize items)) ∧
      ∀ source source', (Item.ofSource source).map Item.normalize =
          (Item.ofSource source').map Item.normalize →
        ofSource source = ofSource source' ∧ ∀ name context,
          ((Template.ofSource name source).bind fun t => t.render context) =
            (Template.ofSource name source').bind fun t => t.render context := by
  constructor
  · intro items
    exact (ofItems_normalize items).symm
  · intro source source' h
    have hbody : ofSource source = ofSource source' := by
      rw [ofSource_eq_bind_normalize, h, ← ofSource_eq_bind_normalize]
    refine ⟨hbody, ?_⟩
    intro name context
    rw [Template.ofSource_bind_render, hbody, ← Template.ofSource_bind_render]

/-- A conditional in three tags, and the same in six tags with blank text between them and its
condition in parentheses. -/
theorem Body.ofSource_eq_of_split_tags :
    let source := s!"<% if a {openBrace} %>x<% {closeBrace} else {openBrace} %>y<% {closeBrace} %>"
    let source' := s!"<% if %> <% (a) %>\n<% {openBrace} %>x<% {closeBrace} %> " ++
      s!"<% else {openBrace} %>y<% {closeBrace} %>"
    let ns : Body := [.conditional [⟨"a", [.text "x"]⟩] (some [.text "y"])]
    (Item.ofSource source).map Item.normalize = (Item.ofSource source').map Item.normalize ∧
      ofSource source = .ok ns ∧ ofSource source' = .ok ns := by
  intro source source' ns
  have hnormal : (Item.ofSource source).map Item.normalize =
      (Item.ofSource source').map Item.normalize := by
    decide +kernel
  have hsource : ofSource source = .ok ns := by
    have hitems : Item.ofSource source = .ok [.token (.keyword .ifWord), .token (.identifier "a"),
        .token .leftBrace, .text "x", .token .rightBrace, .token (.keyword .elseWord),
        .token .leftBrace, .text "y", .token .rightBrace] := by
      decide +kernel
    rw [ofSource, hitems]
    rfl
  obtain ⟨hsame, -⟩ := ofItems_eq_normalize_and_ofSource_eq.2 source source' hnormal
  exact ⟨hnormal, hsource, hsame ▸ hsource⟩

end Stencil
