import Stencil.Proofs.Body.Merge
import Stencil.Proofs.Draft
import Stencil.Proofs.Progress

/-!
# Trees that grow in place

A reading keeps its open blocks apart from each other, as a draft. Another way to read the same
items is to keep one tree and the number of open blocks, and to make every change to the tree at
that depth of its open path: nodes are appended there, `}` goes one level up, and `else` gives the
last conditional of the level one more body and goes down again. Here every text is a node of its
own.

Both ways have the same outcome, except that texts next to each other are one node in a draft. The
proof goes by drafts whose texts are still apart: such a draft determines the tree that grows in
place, namely the draft with its blocks put together (`Stencil.Draft.growth`), and it determines the
draft of the reading, by merging texts (`Stencil.Draft.mergeTexts`). Every event takes both of them
to what one and the same draft determines, or to the same fault.

## Main definitions

* `Stencil.Growth`: a tree and the number of its open blocks.
* `Stencil.Growth.apply`, `Stencil.Growth.finish`: the events, as edits at a depth.
* `Stencil.Body.ofItemsInPlace`: the body of a sequence of items that grows in place.
* `Stencil.Draft.tree`, `Stencil.Draft.growth`, `Stencil.Draft.mergeTexts`: what a draft with its
  texts apart determines.

## Main results

* `Stencil.Draft.edit_tree`: an edit at the depth of the open blocks is one of the innermost body.
* `Stencil.Draft.exists_apply`: both ways take the same step.
* `Stencil.Body.ofItems_eq_map_mergeTexts`: both ways have the same outcome.
-/

namespace Stencil

/-! ### Growing in place -/

/-- A tree that grows at its right edge. -/
structure Growth where
  /-- The nodes so far, with the open blocks at the end. -/
  tree : Body
  /-- The number of open blocks, which is the depth of the innermost one on the open path. -/
  depth : Nat

namespace Growth

/-- Nothing has grown yet. -/
def empty : Growth := ⟨[], 0⟩

/-- The tree with a node added to its innermost open body, of which some levels are then open. -/
def add (g : Growth) (n : Node) (levels : Nat) : Except Fault Growth :=
  (Body.addNode g.tree n g.depth).map fun ns => ⟨ns, g.depth + levels⟩

/-- The tree after an event. Text is added as a node of its own if it is not empty. -/
def apply (g : Growth) : Event → Except Fault Growth
  | .text s => if s = "" then .ok g else g.add (.text s) 0
  | .expression path => g.add (.expression path) 0
  | .openIf condition => g.add (.conditional [.ofCondition condition] none) 1
  | .openFor name collection => g.add (.loop name collection []) 1
  | .close =>
    match g.depth with
    | 0 => .error (.brackets .strayClose)
    | depth + 1 => .ok ⟨g.tree, depth⟩
  -- The block was closed just before, so this depth is the one around it.
  | .elseIf condition =>
    (Body.addBranch g.tree (.ofCondition condition) g.depth).map fun ns => ⟨ns, g.depth + 1⟩
  | .otherwise => (Body.addAlternative g.tree g.depth).map fun ns => ⟨ns, g.depth + 1⟩

/-- The tree after a sequence of events. -/
def applyAll (g : Growth) (events : List Event) : Except Fault Growth :=
  events.foldlM apply g

/-- The whole tree, when every block has been closed. -/
def finish (g : Growth) : Except Fault Body :=
  if g.depth = 0 then .ok g.tree else .error (.brackets (.neverClosed g.depth))

/-- One more item is read, and the tree grows by the events that are now complete. -/
def step (p : Reader × Growth) (item : Item) : Except Fault (Reader × Growth) := do
  let (reader, events) ← (p.1.step item).mapError .statement
  let growth ← p.2.applyAll events
  return (reader, growth)

/-- The whole tree after the last item. -/
def finishReading (p : Reader × Growth) : Except Fault Body := do
  let events ← p.1.finish.mapError .statement
  let growth ← p.2.applyAll events
  growth.finish

theorem applyAll_cons (g : Growth) (e : Event) (es : List Event) :
    g.applyAll (e :: es) = (g.apply e).bind fun g' => g'.applyAll es := by
  rw [applyAll, List.foldlM_cons]
  rfl

end Growth

/-- The body that a sequence of items describes, grown in place and with all its texts apart. -/
def Body.ofItemsInPlace (items : List Item) : Except Fault Body := do
  let p ← items.foldlM Growth.step (.content, .empty)
  Growth.finishReading p

/-! ### Edits at the depth of the open blocks -/

namespace Body

/-- A depth can be gone down all but one level first. -/
theorem editAt_succ_eq_editAt (f : Body → Except StatementFault Body) (depth : Nat) (ns : Body) :
    editAt f (depth + 1) ns = editAt (editAt f 1) depth ns := by
  induction depth generalizing ns with
  | zero => rfl
  | succ depth ih =>
    rw [editAt, editAt]
    simp only [ih]

end Body

namespace Draft

/-- The tree of an open body and the blocks around it, innermost first. -/
def treeAround : List (Body × Frame) → Body → Body
  | [], body => body
  | (before, frame) :: stack, body => treeAround stack (before ++ [frame.fill body])

/-- The tree of a draft, with its open blocks at the end. -/
def tree (d : Draft) : Body :=
  treeAround d.enclosing d.body

/-- The tree of a draft and the number of its open blocks. -/
def growth (d : Draft) : Growth :=
  ⟨d.tree, d.enclosing.length⟩

/-- The draft with neighbouring texts merged. -/
def mergeTexts (d : Draft) : Draft :=
  ⟨Body.mergeTexts d.body, d.enclosing.map fun p => (Body.mergeTexts p.1, p.2.mergeTexts)⟩

theorem editAt_treeAround (f : Body → Except StatementFault Body) (stack : List (Body × Frame))
    (body : Body) : Body.editAt f stack.length (treeAround stack body) =
      (f body).map (treeAround stack) := by
  induction stack generalizing f body with
  | nil =>
    show f body = (f body).map (treeAround [])
    cases f body <;> rfl
  | cons p stack ih =>
    obtain ⟨before, frame⟩ := p
    rw [List.length_cons, Body.editAt_succ_eq_editAt, treeAround, ih,
      Body.editAt_succ_append_fill, Body.editAt_zero]
    cases f body <;> rfl

/-- An edit at the depth of the open blocks is one of the innermost body. -/
theorem edit_tree (f : Body → Except StatementFault Body) (d : Draft) :
    Body.edit f d.enclosing.length d.tree =
      ((f d.body).map (treeAround d.enclosing)).mapError .statement := by
  rw [Body.edit, if_neg (by omega), Int.toNat_natCast, tree, editAt_treeAround]

/-- A node that is added to the tree is appended to the innermost body. -/
theorem add_growth (d : Draft) (n : Node) (levels : Nat) : d.growth.add n levels =
    .ok ⟨treeAround d.enclosing (d.body ++ [n]), d.enclosing.length + levels⟩ := by
  rw [Growth.add, growth, Body.addNode, edit_tree]
  rfl

/-- A node that is no text stays apart from the innermost body that it is appended to. -/
theorem mergeTexts_append_singleton {n : Node} (hn : n.isText = false) (body : Body)
    (stack : List (Body × Frame)) : mergeTexts ⟨body ++ [n], stack⟩ =
      { mergeTexts ⟨body, stack⟩ with body := Body.mergeTexts body ++ [n.mergeTexts] } := by
  rw [mergeTexts, Body.mergeTexts_append_singleton hn]
  rfl

/-! ### One step -/

variable {f : Node → Except StatementFault Node}

/-- Opening a block once more. An edit of its node which fails on every text, and which otherwise
fails or leaves an empty open body alike before and after merging, has the same outcome at a depth
of the tree and in a draft. -/
theorem exists_reopen (whenEmpty : StatementFault)
    (htext : ∃ fault, ∀ s, f (.text s) = .error fault)
    (hf : ∀ n : Node, n.isText = false →
      (∃ fault, f n = .error fault ∧ f n.mergeTexts = .error fault) ∨
        ∃ frame : Frame, f n = .ok (frame.fill []) ∧
          f n.mergeTexts = .ok (frame.mergeTexts.fill []))
    (d : Draft) : ∃ r : Except Fault Draft,
      (Body.edit (Body.editLast whenEmpty f) d.enclosing.length d.tree).map
          (⟨·, d.enclosing.length + 1⟩) = r.map growth ∧
        d.mergeTexts.reopen (Body.editLast whenEmpty f d.mergeTexts.body) = r.map mergeTexts := by
  obtain ⟨body, stack⟩ := d
  rw [edit_tree, mergeTexts]
  rcases List.eq_nil_or_concat body with rfl | ⟨before, n, rfl⟩
  · exact ⟨.error (.statement whenEmpty), rfl, rfl⟩
  rw [List.concat_eq_append, Body.editLast_append_singleton]
  cases hn : n.isText with
  | true =>
    cases n with
    | text s =>
      obtain ⟨fault, hfault⟩ := htext
      obtain ⟨merged, t, hmerged⟩ := Body.exists_mergeTexts_append_text before s
      refine ⟨.error (.statement fault), ?_, ?_⟩
      · rw [hfault]
        rfl
      · rw [hmerged, Body.editLast_append_singleton, hfault]
        rfl
    | _ => cases hn
  | false =>
    rw [Body.mergeTexts_append_singleton hn, Body.editLast_append_singleton]
    rcases hf n hn with ⟨fault, hapart, hmerged⟩ | ⟨frame, hapart, hmerged⟩
    · refine ⟨.error (.statement fault), ?_, ?_⟩
      · rw [hapart]
        rfl
      · rw [hmerged]
        rfl
    · refine ⟨.ok ⟨[], (before, frame) :: stack⟩, ?_, ?_⟩
      · rw [hapart]
        rfl
      · rw [hmerged]
        exact reopen_append_fill _

/-- `else if` opens the last conditional once more, unless it has an alternative. -/
theorem exists_apply_elseIf (condition : String) (d : Draft) : ∃ r : Except Fault Draft,
    d.growth.apply (.elseIf condition) = r.map growth ∧
      d.mergeTexts.apply (.elseIf condition) = r.map mergeTexts := by
  refine exists_reopen .elseIfWithoutIf ⟨.elseIfWithoutIf, fun _ => rfl⟩ ?_ d
  intro n hn
  cases n with
  | text s => cases hn
  | expression path => exact .inl ⟨_, rfl, rfl⟩
  | loop name collection body => exact .inl ⟨_, rfl, rfl⟩
  | conditional branches alternative =>
    cases alternative with
    | some body => exact .inl ⟨_, rfl, rfl⟩
    | none => exact .inr ⟨.branch branches condition, rfl, rfl⟩

/-- `else` opens the last conditional once more, if it has a branch and no alternative. -/
theorem exists_apply_otherwise (d : Draft) : ∃ r : Except Fault Draft,
    d.growth.apply .otherwise = r.map growth ∧
      d.mergeTexts.apply .otherwise = r.map mergeTexts := by
  refine exists_reopen .elseWithoutIf ⟨.elseWithoutIf, fun _ => rfl⟩ ?_ d
  intro n hn
  cases n with
  | text s => cases hn
  | expression path => exact .inl ⟨_, rfl, rfl⟩
  | loop name collection body => exact .inl ⟨_, rfl, rfl⟩
  | conditional branches alternative =>
    cases branches with
    | nil => exact .inl ⟨_, rfl, rfl⟩
    | cons b branches =>
      obtain ⟨condition, inner⟩ := b
      cases alternative with
      | some body => exact .inl ⟨_, rfl, rfl⟩
      | none => exact .inr ⟨.alternative (⟨condition, inner⟩ :: branches), rfl, rfl⟩

/-- Every event takes a tree that grows in place and the draft of the reading to what one and the
same draft determines, or to the same fault. -/
theorem exists_apply (d : Draft) (e : Event) : ∃ r : Except Fault Draft,
    d.growth.apply e = r.map growth ∧ d.mergeTexts.apply e = r.map mergeTexts := by
  obtain ⟨body, stack⟩ := d
  cases e with
  | text s =>
    by_cases hs : s = ""
    · subst hs
      refine ⟨.ok ⟨body, stack⟩, rfl, ?_⟩
      rw [apply, Body.appendText_empty]
      rfl
    · refine ⟨.ok ⟨body ++ [.text s], stack⟩, ?_, ?_⟩
      · rw [Growth.apply, if_neg hs]
        exact add_growth ⟨body, stack⟩ (.text s) 0
      · rw [apply, mergeTexts, ← Body.mergeTexts_append_text hs]
        rfl
  | expression path =>
    refine ⟨.ok ⟨body ++ [.expression path], stack⟩, ?_, ?_⟩
    · exact add_growth ⟨body, stack⟩ (.expression path) 0
    · rw [Except.map, mergeTexts_append_singleton rfl]
      rfl
  | openIf condition =>
    refine ⟨.ok ⟨[], (body, .branch [] condition) :: stack⟩, ?_, rfl⟩
    exact add_growth ⟨body, stack⟩ (.conditional [.ofCondition condition] none) 1
  | openFor name collection =>
    refine ⟨.ok ⟨[], (body, .loop name collection) :: stack⟩, ?_, rfl⟩
    exact add_growth ⟨body, stack⟩ (.loop name collection []) 1
  | close =>
    cases stack with
    | nil => exact ⟨.error (.brackets .strayClose), rfl, rfl⟩
    | cons p stack =>
      obtain ⟨before, frame⟩ := p
      refine ⟨.ok ⟨before ++ [frame.fill body], stack⟩, rfl, ?_⟩
      rw [Except.map, mergeTexts_append_singleton (frame.isText_fill body), Frame.mergeTexts_fill]
      rfl
  | elseIf condition => exact exists_apply_elseIf condition ⟨body, stack⟩
  | otherwise => exact exists_apply_otherwise ⟨body, stack⟩

/-! ### Whole readings -/

theorem exists_applyAll (d : Draft) (es : List Event) : ∃ r : Except Fault Draft,
    d.growth.applyAll es = r.map growth ∧ d.mergeTexts.applyAll es = r.map mergeTexts := by
  induction es generalizing d with
  | nil => exact ⟨.ok d, rfl, rfl⟩
  | cons e es ih =>
    obtain ⟨r, hgrowth, hmerged⟩ := exists_apply d e
    rw [Growth.applyAll_cons, applyAll_cons, hgrowth, hmerged]
    cases r with
    | error fault => exact ⟨.error fault, rfl, rfl⟩
    | ok d' => exact ih d'

theorem finish_mergeTexts (d : Draft) :
    d.mergeTexts.finish = d.growth.finish.map Body.mergeTexts := by
  obtain ⟨body, stack⟩ := d
  cases stack with
  | nil => rfl
  | cons p stack =>
    rw [finish, mergeTexts, List.length_map]
    rfl

/-- An item takes both readings to what one and the same draft determines, or to the same fault. -/
theorem exists_step (reader : Reader) (d : Draft) (item : Item) :
    ∃ r : Except Fault (Reader × Draft),
      Growth.step (reader, d.growth) item = r.map (fun p => (p.1, p.2.growth)) ∧
        Progress.step ⟨reader, d.mergeTexts⟩ item = r.map fun p => ⟨p.1, p.2.mergeTexts⟩ := by
  rw [Growth.step, Progress.step]
  cases reader.step item with
  | error fault => exact ⟨.error (.statement fault), rfl, rfl⟩
  | ok next =>
    obtain ⟨r, hgrowth, hmerged⟩ := exists_applyAll d next.2
    refine ⟨r.map fun d => (next.1, d), ?_, ?_⟩
    · show ((d.growth.applyAll next.2).bind fun g => .ok (next.1, g)) = _
      rw [hgrowth]
      cases r <;> rfl
    · show ((d.mergeTexts.applyAll next.2).bind fun d => .ok (⟨next.1, d⟩ : Progress)) = _
      rw [hmerged]
      cases r <;> rfl

/-- The outcomes of both readings at the end of the items. -/
theorem finish_eq_map_mergeTexts (reader : Reader) (d : Draft) :
    Progress.finish ⟨reader, d.mergeTexts⟩ =
      (Growth.finishReading (reader, d.growth)).map Body.mergeTexts := by
  rw [Growth.finishReading, Progress.finish]
  cases reader.finish with
  | error fault => rfl
  | ok es =>
    obtain ⟨r, hgrowth, hmerged⟩ := exists_applyAll d es
    show ((d.mergeTexts.applyAll es).bind Draft.finish) =
      ((d.growth.applyAll es).bind Growth.finish).map Body.mergeTexts
    rw [hgrowth, hmerged]
    cases r with
    | error fault => rfl
    | ok d' => exact finish_mergeTexts d'

/-- The outcomes of both readings with the given items still to come. -/
theorem run_mergeTexts (reader : Reader) (d : Draft) (items : List Item) :
    Progress.run ⟨reader, d.mergeTexts⟩ items =
      ((items.foldlM Growth.step (reader, d.growth)).bind Growth.finishReading).map
        Body.mergeTexts := by
  induction items generalizing reader d with
  | nil => exact finish_eq_map_mergeTexts reader d
  | cons item items ih =>
    obtain ⟨r, hgrowth, hmerged⟩ := exists_step reader d item
    rw [Progress.run_cons, List.foldlM_cons, hgrowth, hmerged]
    cases r with
    | error fault => rfl
    | ok next => exact ih next.1 next.2

end Draft

/-- **Growing in place.** A sequence of items is read as the tree that grows in place, with
neighbouring texts merged, or with the same fault. -/
theorem Body.ofItems_eq_map_mergeTexts (items : List Item) :
    ofItems items = (ofItemsInPlace items).map mergeTexts := by
  have hstart : Progress.start = ⟨.content, Draft.empty.mergeTexts⟩ := rfl
  rw [Progress.ofItems_eq_run, hstart]
  exact Draft.run_mergeTexts .content .empty items

-- Both readings make one tree, but for the texts in front of the block.
example :
    let items : List Item := [.text "a", .text "b", .token (.keyword .ifWord),
      .token (.identifier "c"), .token .leftBrace, .expression " d ", .token .rightBrace]
    let block : Node := .conditional [⟨"c", [.expression "d"]⟩] none
    Body.ofItemsInPlace items = .ok [.text "a", .text "b", block] ∧
      Body.ofItems items = .ok [.text "ab", block] :=
  ⟨rfl, rfl⟩

end Stencil
