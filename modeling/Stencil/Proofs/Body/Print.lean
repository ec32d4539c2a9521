import Stencil.Proofs.Body.WellFormed
import Stencil.Proofs.Segment.Escape

/-!
# Writing a body as a template

A body is written with one blank around every word of a statement and every path, and with `<%` in
its texts escaped. A well-formed body is read back from what it is written as. Together with the
fact that only well-formed bodies are read (`Stencil.Body.wellFormed_of_ofSource`), this says that
the well-formed bodies are exactly the trees of sources.

The proof cuts the written template into the segments that reading finds in it, shows that they are
canonical, and derives the body from their items.

## Main definitions

* `Stencil.Node.print`, `Stencil.Body.print`: the template of a node and of a body.
* `Stencil.Node.segments`, `Stencil.Body.segments`: the segments of these templates.

## Main results

* `Stencil.Body.toList_print`: the segments spell the template.
* `Stencil.Body.canonical_segments`: the segments of a well-formed body are canonical.
* `Stencil.Body.derives_segments`: their items derive the body.
* `Stencil.Body.wellFormed_of_ofSource_and_ofSource_print`: writing and reading is the identity on
  exactly the trees of sources.
-/

namespace Stencil

/-! ### Templates -/

/-- How the tag in front of a body ends. -/
def Body.opening : String := " " ++ openBrace ++ " %>"

/-- The tag behind the last body of a block. -/
def Body.closing : String := "<% " ++ closeBrace ++ " %>"

mutual

/-- The template of a node. -/
def Node.print : Node → String
  | .text s => String.ofList (Text.escape s.toList)
  | .expression path => "<%= " ++ path ++ " %>"
  | .conditional branches alternative =>
    Branch.print "<% if " branches ++ Body.printAlternative alternative ++ Body.closing
  | .loop name collection body =>
    "<% for " ++ name ++ " in " ++ collection ++ Body.opening ++ Body.print body ++ Body.closing

/-- The template of the branches of a conditional, the first of them behind the given words. -/
def Branch.print : String → List Branch → String
  | _, [] => ""
  | start, ⟨condition, body⟩ :: branches =>
    start ++ condition ++ Body.opening ++ Body.print body ++
      Branch.print ("<% " ++ closeBrace ++ " else if ") branches

/-- The template of the alternative of a conditional, if there is one. -/
def Body.printAlternative : Option Body → String
  | none => ""
  | some body => "<% " ++ closeBrace ++ " else" ++ Body.opening ++ Body.print body

/-- The template of a body. -/
def Body.print : Body → String
  | [] => ""
  | n :: ns => n.print ++ Body.print ns

end

/-! ### Segments of templates -/

/-- The code tag with the given tokens. -/
def Segment.statement (ts : List Token) : Segment :=
  code (Token.spell ts)

mutual

/-- The segments of the template of a node. -/
def Node.segments : Node → List Segment
  | .text s => Segment.ofText s.toList
  | .expression path => [.expression (" " ++ path ++ " ")]
  | .conditional branches alternative =>
    Branch.segments [.keyword .ifWord] branches ++
      (Body.segmentsAlternative alternative ++ [.statement [.rightBrace]])
  | .loop name collection body =>
    .statement [.keyword .forWord, .identifier name, .keyword .inWord, .identifier collection,
      .leftBrace] :: (Body.segments body ++ [.statement [.rightBrace]])

/-- The segments of the branches of a conditional, the first of them behind the given tokens. -/
def Branch.segments : List Token → List Branch → List Segment
  | _, [] => []
  | start, ⟨condition, body⟩ :: branches =>
    .statement (start ++ [.identifier condition, .leftBrace]) :: (Body.segments body ++
      Branch.segments [.rightBrace, .keyword .elseWord, .keyword .ifWord] branches)

/-- The segments of the alternative of a conditional, if there is one. -/
def Body.segmentsAlternative : Option Body → List Segment
  | none => []
  | some body =>
    .statement [.rightBrace, .keyword .elseWord, .leftBrace] :: Body.segments body

/-- The segments of the template of a body. -/
def Body.segments : Body → List Segment
  | [] => []
  | n :: ns => n.segments ++ Body.segments ns

end

namespace Segment

@[simp] theorem isText_statement (ts : List Token) : (statement ts).isText = false := rfl

theorem chars_statement (ts : List Token) :
    (statement ts).chars = "<%".toList ++ ((Token.spell ts).toList ++ "%>".toList) := by
  simp [statement, chars]

/-- A statement of proper tokens is a proper segment. -/
theorem isProper_statement {ts : List Token} (h : ∀ t ∈ ts, t.IsProper) :
    (statement ts).IsProper := by
  refine ⟨Token.not_close_spell h, ?_⟩
  rw [Token.toList_spell]
  simp

/-- The items of a statement are its tokens. -/
theorem ofSegment_statement {ts : List Token} (h : ∀ t ∈ ts, t.IsProper) :
    Item.ofSegment (statement ts) = ts.map Item.token := by
  rw [statement, Item.ofSegment, Token.ofCode_spell h]

end Segment

/-! ### The segments spell the template -/

mutual

theorem Node.toList_print (n : Node) : n.print.toList = n.segments.flatMap Segment.chars := by
  match n with
  | .text s =>
    rw [Node.print, Node.segments, String.toList_ofList, Segment.flatMap_chars_ofText]
  | .expression path => simp [Node.print, Node.segments, Segment.chars]
  | .conditional branches alternative =>
    have hstart : "<% if ".toList = "<%".toList ++ (Token.spell [.keyword .ifWord]).toList := by
      simp [Token.toList_spell, Token.written, Keyword.word]
    have hbranches := Branch.toList_print hstart branches
    have halternative := Body.toList_printAlternative alternative
    simp [Node.print, Node.segments, Body.closing, hbranches, halternative,
      Segment.chars_statement, Token.toList_spell, Token.written]
  | .loop name collection body =>
    have hbody := Body.toList_print body
    simp [Node.print, Node.segments, Body.opening, Body.closing, hbody, Segment.chars_statement,
      Token.toList_spell, Token.written, Keyword.word]

theorem Branch.toList_print {start : String} {ts : List Token}
    (hstart : start.toList = "<%".toList ++ (Token.spell ts).toList) (branches : List Branch) :
    (Branch.print start branches).toList = (Branch.segments ts branches).flatMap Segment.chars := by
  match branches with
  | [] => simp [Branch.print, Branch.segments]
  | ⟨condition, body⟩ :: branches =>
    have hnext : ("<% " ++ closeBrace ++ " else if ").toList = "<%".toList ++
        (Token.spell [.rightBrace, .keyword .elseWord, .keyword .ifWord]).toList := by
      simp [Token.toList_spell, Token.written, Keyword.word]
    have hbody := Body.toList_print body
    have hbranches := Branch.toList_print hnext branches
    rw [Token.toList_spell] at hstart
    simp [Branch.print, Branch.segments, Body.opening, hstart, hbody, hbranches,
      Segment.chars_statement, Token.toList_spell, Token.written]

theorem Body.toList_printAlternative (alternative : Option Body) :
    (Body.printAlternative alternative).toList =
      (Body.segmentsAlternative alternative).flatMap Segment.chars := by
  match alternative with
  | none => simp [Body.printAlternative, Body.segmentsAlternative]
  | some body =>
    have hbody := Body.toList_print body
    simp [Body.printAlternative, Body.segmentsAlternative, Body.opening, hbody,
      Segment.chars_statement, Token.toList_spell, Token.written, Keyword.word]

/-- The segments of a body spell its template. -/
theorem Body.toList_print (ns : Body) :
    (Body.print ns).toList = (Body.segments ns).flatMap Segment.chars := by
  match ns with
  | [] => simp [Body.print, Body.segments]
  | n :: ns =>
    have hn := n.toList_print
    have hns := Body.toList_print ns
    simp [Body.print, Body.segments, hn, hns]

end

theorem Body.join_segments (ns : Body) : Segment.join (segments ns) = print ns :=
  Segment.join_eq_iff.2 (toList_print ns).symm

/-! ### The segments of a well-formed body are canonical -/

namespace Segment

/-- A canonical sequence that does not start with a text may follow any other one. -/
theorem Canonical.append_of_head {segments segments' : List Segment} (h : Canonical segments)
    (h' : Canonical segments') (hhead : ∀ g ∈ segments'.head?, g.isText = false) :
    Canonical (segments ++ segments') := by
  refine h.append h' ?_
  rintro g - g' hg' ⟨-, htext⟩
  exact absurd ((hhead g' hg').symm.trans htext) Bool.false_ne_true

/-- Two sequences that do not start with a text do not do so one after the other either. -/
theorem isText_of_mem_head?_append {segments segments' : List Segment}
    (h : ∀ g ∈ segments.head?, g.isText = false) (h' : ∀ g ∈ segments'.head?, g.isText = false) :
    ∀ g ∈ (segments ++ segments').head?, g.isText = false := by
  cases segments with
  | nil => exact h'
  | cons g segments => exact h

/-- A statement in front of a canonical sequence. -/
theorem Canonical.statement_cons {ts : List Token} (hts : ∀ t ∈ ts, t.IsProper)
    {segments : List Segment} (h : Canonical segments) : Canonical (statement ts :: segments) :=
  canonical_cons_iff.2 ⟨isProper_statement hts, h, fun ht => absurd ht Bool.false_ne_true⟩

theorem canonical_statement {ts : List Token} (hts : ∀ t ∈ ts, t.IsProper) :
    Canonical [statement ts] :=
  .statement_cons hts canonical_nil

/-- A canonical sequence between two statements. -/
theorem Canonical.append_statement {ts : List Token} (hts : ∀ t ∈ ts, t.IsProper)
    {segments : List Segment} (h : Canonical segments) : Canonical (segments ++ [statement ts]) :=
  h.append_of_head (canonical_statement hts) (by simp)

end Segment

/-- The brace at the end of a block is a proper token. -/
theorem Token.isProper_rightBrace : ∀ t ∈ [Token.rightBrace], t.IsProper := by
  simp [Token.IsProper]

mutual

theorem Node.canonical_segments {n : Node} (h : n.WellFormed) :
    Segment.Canonical n.segments ∧ n.segments ≠ [] ∧ (n.isText = false →
      (∀ g ∈ n.segments.head?, g.isText = false) ∧
        ∀ g ∈ n.segments.getLast?, g.isText = false) := by
  match n, h with
  | .text s, h =>
    have hs : s.toList ≠ [] := fun he => h (String.toList_eq_nil_iff.1 he)
    exact ⟨Segment.canonical_ofText _, Segment.ofText_ne_nil hs, fun ht => by cases ht⟩
  | .expression path, ⟨_, hclose⟩ =>
    have hproper : (Segment.expression (" " ++ path ++ " ")).IsProper := by
      have hlist : (" " ++ path ++ " ").toList = ' ' :: (path.toList ++ ' ' :: []) := by simp
      rw [Segment.IsProper, hlist, Text.mark_infix_cons_iff (by decide),
        Text.mark_infix_append_cons_iff (by decide) (by decide), not_or]
      exact ⟨hclose, by decide⟩
    refine ⟨?_, List.cons_ne_nil _ _, fun _ => ⟨by simp [Node.segments], by simp [Node.segments]⟩⟩
    exact Segment.canonical_cons_iff.2
      ⟨hproper, Segment.canonical_nil, fun ht => absurd ht Bool.false_ne_true⟩
  | .conditional branches alternative, ⟨hne, hbranches, halternative⟩ =>
    have hif : ∀ t ∈ [Token.keyword .ifWord], t.IsProper := by simp [Token.IsProper]
    obtain ⟨hcb, hhb⟩ := Branch.canonical_segments hif hbranches
    obtain ⟨hca, hha⟩ := Body.canonical_segmentsAlternative halternative
    have hend := hca.append_statement Token.isProper_rightBrace
    have hbrace : ∀ g ∈ [Segment.statement [.rightBrace]].head?, g.isText = false := by simp
    have hhend := Segment.isText_of_mem_head?_append hha hbrace
    refine ⟨hcb.append_of_head hend hhend, by simp [Node.segments], fun _ => ⟨?_, ?_⟩⟩
    · exact Segment.isText_of_mem_head?_append hhb hhend
    · simp [Node.segments]
  | .loop name collection body, ⟨hname, hcollection, hbody⟩ =>
    have hfor : ∀ t ∈ [Token.keyword .forWord, .identifier name, .keyword .inWord,
        .identifier collection, .leftBrace], t.IsProper := by
      simp [Token.IsProper, hname, hcollection]
    have hcanonical := (Body.canonical_segments hbody).1.append_statement Token.isProper_rightBrace
    refine ⟨hcanonical.statement_cons hfor, List.cons_ne_nil _ _, fun _ => ⟨?_, ?_⟩⟩
    · simp [Node.segments]
    · simp [Node.segments, List.getLast?_cons]

theorem Branch.canonical_segments {start : List Token} (hstart : ∀ t ∈ start, t.IsProper)
    {branches : List Branch} (h : Branch.AllWellFormed branches) :
    Segment.Canonical (Branch.segments start branches) ∧
      ∀ g ∈ (Branch.segments start branches).head?, g.isText = false := by
  match branches, h with
  | [], _ => exact ⟨Segment.canonical_nil, by simp [Branch.segments]⟩
  | ⟨condition, body⟩ :: branches, ⟨hcondition, hbody, hbranches⟩ =>
    have hopening : ∀ t ∈ start ++ [.identifier condition, .leftBrace], t.IsProper := by
      refine List.forall_mem_append.2 ⟨hstart, ?_⟩
      simp [Token.IsProper, hcondition]
    have hnext : ∀ t ∈ [Token.rightBrace, .keyword .elseWord, .keyword .ifWord], t.IsProper := by
      simp [Token.IsProper]
    obtain ⟨hrest, hhead⟩ := Branch.canonical_segments hnext hbranches
    have hcanonical := (Body.canonical_segments hbody).1.append_of_head hrest hhead
    exact ⟨hcanonical.statement_cons hopening, by simp [Branch.segments]⟩

theorem Body.canonical_segmentsAlternative {alternative : Option Body}
    (h : Body.WellFormedOption alternative) :
    Segment.Canonical (Body.segmentsAlternative alternative) ∧
      ∀ g ∈ (Body.segmentsAlternative alternative).head?, g.isText = false := by
  match alternative, h with
  | none, _ => exact ⟨Segment.canonical_nil, by simp [Body.segmentsAlternative]⟩
  | some body, h =>
    have helse : ∀ t ∈ [Token.rightBrace, .keyword .elseWord, .leftBrace], t.IsProper := by
      simp [Token.IsProper]
    have hcanonical := (Body.canonical_segments h).1.statement_cons helse
    exact ⟨hcanonical, by simp [Body.segmentsAlternative]⟩

/-- The segments of a well-formed body are canonical, and they start with a text only if the body
does. -/
theorem Body.canonical_segments {ns : Body} (h : Body.WellFormed ns) :
    Segment.Canonical (Body.segments ns) ∧ ((∀ n ∈ ns.head?, n.isText = false) →
      ∀ g ∈ (Body.segments ns).head?, g.isText = false) := by
  match ns, h with
  | [], _ => exact ⟨Segment.canonical_nil, by simp [Body.segments]⟩
  | n :: ns, ⟨hn, hns, hmeet⟩ =>
    obtain ⟨hcn, hne, hedges⟩ := Node.canonical_segments hn
    obtain ⟨hcns, hhead⟩ := Body.canonical_segments hns
    refine ⟨hcn.append hcns ?_, fun htext => ?_⟩
    · rintro g hg g' hg' ⟨htext, htext'⟩
      cases hnt : n.isText with
      | true => exact absurd ((hhead (hmeet hnt) g' hg').symm.trans htext') Bool.false_ne_true
      | false => exact absurd (((hedges hnt).2 g hg).symm.trans htext) Bool.false_ne_true
    · rw [Body.segments, List.head?_append_of_ne_nil _ hne]
      exact (hedges (htext n rfl)).1

end

/-! ### The items of these segments derive the body -/

/-- A path with a blank on both sides is trimmed to the path. -/
theorem Text.trim_pad {path : String} (h : IsTrimmed path.toList) :
    trim (" " ++ path ++ " ") = path := by
  have hpad : (" " ++ path ++ " ").toList = ' ' :: (path.toList ++ [' ']) := by simp
  have htrim : trimChars (' ' :: (path.toList ++ [' '])) = path.toList := by
    have hblank : isBlank ' ' = true := by decide
    rw [trimChars, List.dropWhile_cons_of_pos hblank]
    cases hlist : path.toList with
    | nil => decide
    | cons c r =>
      rw [hlist] at h
      have hc : isBlank c = false := h.1 c rfl
      have hr : trimEnd (c :: r) = c :: r := by
        have htrimmed := trimChars_of_isTrimmed h
        rwa [trimChars, List.dropWhile_cons_of_neg (by simp [hc])] at htrimmed
      rw [List.cons_append, List.dropWhile_cons_of_neg (by simp [hc]), ← List.cons_append, trimEnd,
        List.reverse_append, List.reverse_singleton, List.singleton_append,
        List.dropWhile_cons_of_pos hblank]
      exact hr
  rw [trim, hpad, htrim, String.ofList_toList]

namespace Grammar

open Item

theorem Opening.plain (c : String) : Opening c [identifier c, token .leftBrace] :=
  .mk isGap_nil .plain isGap_nil

theorem LoopOpening.plain (x c : String) :
    LoopOpening x c [identifier x, keyword .inWord, identifier c, token .leftBrace] :=
  .mk isGap_nil (.plain isGap_nil isGap_nil) isGap_nil

end Grammar

open Grammar

mutual

theorem Node.derives_segments {n : Node} (h : n.WellFormed) {items : List Item} {ns : Body}
    (hrest : Derives items (.body ns))
    (hmeet : n.isText = true → ∀ m ∈ ns.head?, m.isText = false) :
    Derives (n.segments.flatMap Item.ofSegment ++ items) (.body (n :: ns)) := by
  match n, h with
  | .text s, h =>
    have hs : s ≠ "" := h
    have htext := derives_ofText s.toList hrest
    rwa [String.ofList_toList, Body.prependText_of_not_isText hs (hmeet rfl)] at htext
  | .expression path, ⟨htrimmed, _⟩ =>
    have hexpression := Derives.expression (" " ++ path ++ " ") hrest
    rwa [Text.trim_pad htrimmed] at hexpression
  | .conditional [] _, ⟨hne, _⟩ => exact absurd rfl hne
  | .conditional (⟨condition, body⟩ :: branches) alternative,
      ⟨_, ⟨hcondition, hbody, hbranches⟩, halternative⟩ =>
    obtain ⟨last, hlast, hdlast⟩ := Body.derives_segmentsAlternative halternative
    obtain ⟨arms, harms, hdarms⟩ := Branch.derives_segments hbranches hdlast
    have hopening : ∀ t ∈ [Token.keyword .ifWord, .identifier condition, .leftBrace],
        t.IsProper := by
      simp [Token.IsProper, hcondition]
    have hblock := Derives.block
      (.conditional (Opening.plain condition) (Body.derives_segments hbody) hdarms) hrest
    rw [← harms, ← hlast] at hblock
    simpa [Node.segments, Branch.segments, Segment.ofSegment_statement hopening,
      Segment.ofSegment_statement Token.isProper_rightBrace] using hblock
  | .loop name collection body, ⟨hname, hcollection, hbody⟩ =>
    have hfor : ∀ t ∈ [Token.keyword .forWord, .identifier name, .keyword .inWord,
        .identifier collection, .leftBrace], t.IsProper := by
      simp [Token.IsProper, hname, hcollection]
    have hblock := Derives.block
      (.loop (LoopOpening.plain name collection) (Body.derives_segments hbody)) hrest
    simpa [Node.segments, Segment.ofSegment_statement hfor,
      Segment.ofSegment_statement Token.isProper_rightBrace] using hblock

/-- The branches after the first one start with the brace that closes the branch before them. -/
theorem Branch.derives_segments {branches : List Branch} (h : Branch.AllWellFormed branches)
    {alternative : Option Body} {last : List Item} (hlast : Derives last (.arms [] alternative)) :
    ∃ arms, (Branch.segments [.rightBrace, .keyword .elseWord, .keyword .ifWord]
        branches).flatMap Item.ofSegment ++ .token .rightBrace :: last =
          .token .rightBrace :: arms ∧ Derives arms (.arms branches alternative) := by
  match branches, h with
  | [], _ => exact ⟨last, rfl, hlast⟩
  | ⟨condition, body⟩ :: branches, ⟨hcondition, hbody, hbranches⟩ =>
    obtain ⟨arms, harms, hdarms⟩ := Branch.derives_segments hbranches hlast
    have hopening : ∀ t ∈ [Token.rightBrace, .keyword .elseWord, .keyword .ifWord,
        .identifier condition, .leftBrace], t.IsProper := by
      simp [Token.IsProper, hcondition]
    refine ⟨_, ?_, .elseIfArm Item.isGap_nil Item.isGap_nil (Opening.plain condition)
      (Body.derives_segments hbody) hdarms⟩
    rw [← harms]
    simp [Branch.segments, Segment.ofSegment_statement hopening]

/-- The end of a conditional starts with the brace that closes its last branch. -/
theorem Body.derives_segmentsAlternative {alternative : Option Body}
    (h : Body.WellFormedOption alternative) :
    ∃ last, (Body.segmentsAlternative alternative).flatMap Item.ofSegment ++
        [.token .rightBrace] = .token .rightBrace :: last ∧
          Derives last (.arms [] alternative) := by
  match alternative, h with
  | none, _ => exact ⟨[], rfl, .noArm⟩
  | some body, h =>
    have helse : ∀ t ∈ [Token.rightBrace, .keyword .elseWord, .leftBrace], t.IsProper := by
      simp [Token.IsProper]
    refine ⟨_, ?_, .elseArm Item.isGap_nil Item.isGap_nil (Body.derives_segments h)⟩
    simp [Body.segmentsAlternative, Segment.ofSegment_statement helse]

/-- The items of the template of a well-formed body derive the body. -/
theorem Body.derives_segments {ns : Body} (h : Body.WellFormed ns) :
    Derives ((Body.segments ns).flatMap Item.ofSegment) (.body ns) := by
  match ns, h with
  | [], _ => exact .empty
  | n :: ns, ⟨hn, hns, hmeet⟩ =>
    have hbody := Node.derives_segments hn (Body.derives_segments hns) hmeet
    rwa [← List.flatMap_append] at hbody

end

/-! ### Writing and reading -/

/-- A well-formed body is read back from its template. -/
theorem Body.ofSource_print {ns : Body} (h : Body.WellFormed ns) :
    ofSource (print ns) = .ok ns := by
  refine ofSource_eq_ok_iff.2 ⟨_, Item.ofSource_eq_ok_iff.2 ⟨_, ?_, rfl⟩, derives_segments h⟩
  rw [← join_segments]
  exact Segment.ofSource_join (canonical_segments h).1

/-- **Writing and reading is the identity on the trees of sources.** Every body that is read from
a source is well-formed, and every well-formed body is read back from the template that it is
written as. -/
theorem Body.wellFormed_of_ofSource_and_ofSource_print :
    (∀ source ns, ofSource source = .ok ns → WellFormed ns) ∧
      ∀ ns, WellFormed ns → ofSource (print ns) = .ok ns := by
  constructor
  · intro source ns h
    exact wellFormed_of_ofSource h
  · intro ns h
    exact ofSource_print h

/-- A text with `<%` in it that ends in front of a tag, words with `%` and `=` in them, a blank text
in a branch, and a branch without nodes. -/
theorem Body.wellFormed_and_ofSource_print_nested :
    let ns : Body := [.text "a<%b<",
      .conditional [⟨"c%", [.text " "]⟩, ⟨"x=", []⟩] (some [.expression "p.q"]),
      .loop "v" "items" [.text "<%"]]
    WellFormed ns ∧ ofSource (print ns) = .ok ns := by
  intro ns
  have hc : Token.IsName "c%" := by decide
  have hx : Token.IsName "x=" := by decide
  have hv : Token.IsName "v" := by decide
  have hitems : Token.IsName "items" := by decide
  have hpath : Text.IsTrimmed "p.q".toList ∧ ¬ ['%', '>'] <:+: "p.q".toList :=
    ⟨⟨by simp; decide, by simp; decide⟩, Text.cut?_eq_none_iff.1 rfl⟩
  have hns : WellFormed ns := by
    simpa [ns, WellFormed, Node.WellFormed, Branch.AllWellFormed, WellFormedOption, Node.isText,
      hc, hx, hv, hitems] using hpath
  have hread := wellFormed_of_ofSource_and_ofSource_print.2 ns hns
  exact ⟨wellFormed_of_ofSource_and_ofSource_print.1 _ ns hread, hread⟩

end Stencil
