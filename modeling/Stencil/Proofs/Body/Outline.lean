import Stencil.Body.Edit
import Stencil.Proofs.Fallible
import Mathlib.Data.List.Basic

/-!
# Outlines

A tree of nodes can be written down line by line, in the order of the source and each line with its
depth: a line for every text, expression, loop and conditional, and in a conditional a line for
every branch and for the alternative. What is in a body comes behind the line of its block and is
one level deeper. The outline keeps all of the tree: where a body ends can be seen from the line
behind it, which is less deep or belongs to the same conditional.

An edit at a depth grows a tree at its right edge, which is the end of its outline. So every edit
that succeeds adds lines at the end and leaves all lines that are there as they are.

## Main definitions

* `Stencil.Line`, `Stencil.Node.outline`, `Stencil.Body.outline`: the lines of nodes and bodies.
* `Stencil.Line.level`, `Stencil.StartsBelow`: what a line can belong to, and the next line by it.
* `Stencil.Frame.outline`: the lines of a block up to its open body.
* `Stencil.AddsLines`: what only adds lines at the end of a body.
* `Stencil.Edit`, `Stencil.Edit.lines`: the edits, and the lines that they add.
* `Stencil.Edit.run`, `Stencil.Edit.succeeding`: several edits one after another.

## Main results

* `Stencil.Body.outline_append_inj`: where a body ends can be seen from the line behind it.
* `Stencil.Frame.outline_fill`, `Stencil.AddsLines.editAt`: the open path leads to the end.
* `Stencil.Edit.outline_of_apply`, `Stencil.Edit.outline_run`: one edit adds its lines at the end,
  and several edits add the lines of those that succeed.
* `Stencil.Body.outline_injective_and_outline_of_edit`: an outline determines its tree, and edits
  only add to it.
-/

namespace Stencil

/-! ### Lines -/

/-- What a line of an outline says. -/
inductive Heading where
  | text (s : String)
  | expression (path : String)
  | loop (name collection : String)
  | conditional
  | branch (condition : String)
  | alternative
deriving DecidableEq

/-- A line of an outline. -/
structure Line where
  depth : Nat
  heading : Heading
deriving DecidableEq

mutual

/-- The lines of a node at some depth. -/
def Node.outline : Node → Nat → List Line
  | .text s, depth => [⟨depth, .text s⟩]
  | .expression path, depth => [⟨depth, .expression path⟩]
  | .conditional branches alternative, depth =>
    ⟨depth, .conditional⟩ ::
      (Branch.outline branches depth ++ Body.outlineOption alternative depth)
  | .loop name collection body, depth =>
    ⟨depth, .loop name collection⟩ :: Body.outline body (depth + 1)

/-- The lines of the branches of a conditional at some depth. -/
def Branch.outline : List Branch → Nat → List Line
  | [], _ => []
  | ⟨condition, body⟩ :: branches, depth =>
    ⟨depth, .branch condition⟩ :: (Body.outline body (depth + 1) ++ Branch.outline branches depth)

/-- The lines of the alternative of a conditional at some depth. -/
def Body.outlineOption : Option Body → Nat → List Line
  | none, _ => []
  | some body, depth => ⟨depth, .alternative⟩ :: Body.outline body (depth + 1)

/-- The lines of a body at some depth. -/
def Body.outline : Body → Nat → List Line
  | [], _ => []
  | n :: ns, depth => n.outline depth ++ Body.outline ns depth

end

theorem Body.outline_append (ns ms : Body) (depth : Nat) :
    outline (ns ++ ms) depth = outline ns depth ++ outline ms depth := by
  induction ns with
  | nil => rfl
  | cons n ns ih => rw [List.cons_append, outline, outline, ih, List.append_assoc]

theorem Body.outline_singleton (n : Node) (depth : Nat) : outline [n] depth = n.outline depth := by
  rw [outline, outline, List.append_nil]

theorem Branch.outline_append (bs cs : List Branch) (depth : Nat) :
    outline (bs ++ cs) depth = outline bs depth ++ outline cs depth := by
  induction bs with
  | nil => rfl
  | cons b bs ih =>
    obtain ⟨condition, body⟩ := b
    rw [List.cons_append, outline, outline, ih, List.cons_append, List.append_assoc]

theorem Branch.outline_singleton (b : Branch) (depth : Nat) :
    outline [b] depth = ⟨depth, .branch b.condition⟩ :: Body.outline b.body (depth + 1) := by
  obtain ⟨condition, body⟩ := b
  rw [outline, outline, List.append_nil]

/-! ### Where bodies end -/

/-- How lines of the same depth can follow a line: a branch follows the one before it, the
alternative follows the branches, and everything else starts a node. -/
def Heading.rank : Heading → Nat
  | branch _ => 2
  | alternative => 1
  | _ => 0

/-- What a line can belong to. A line ends all that was begun by lines of a higher level. -/
def Line.level (l : Line) : Nat :=
  3 * l.depth + l.heading.rank

/-- The next line, if there is one, has a level below a bound. -/
def StartsBelow (bound : Nat) (ls : List Line) : Prop :=
  ∀ l ∈ ls.head?, l.level < bound

namespace StartsBelow

variable {bound bound' : Nat} {ls : List Line} {l : Line}

theorem nil (bound : Nat) : StartsBelow bound [] := nofun

theorem mono (h : StartsBelow bound ls) (hle : bound ≤ bound') : StartsBelow bound' ls :=
  fun l hl => Nat.lt_of_lt_of_le (h l hl) hle

theorem cons_iff : StartsBelow bound (l :: ls) ↔ l.level < bound := by
  simp [StartsBelow]

end StartsBelow

/-! What outlines start with, with more lines behind them. -/

theorem Node.exists_outline_eq_cons (n : Node) (depth : Nat) :
    ∃ l ls, n.outline depth = l :: ls ∧ l.level = 3 * depth := by
  cases n <;> exact ⟨_, _, rfl, rfl⟩

theorem Node.startsBelow_outline_iff (n : Node) (depth bound : Nat) (ls : List Line) :
    StartsBelow bound (n.outline depth ++ ls) ↔ 3 * depth < bound := by
  obtain ⟨l, rest, houtline, hlevel⟩ := n.exists_outline_eq_cons depth
  rw [houtline, List.cons_append, StartsBelow.cons_iff, hlevel]

theorem Body.startsBelow_outline {depth : Nat} {ls : List Line}
    (h : StartsBelow (3 * depth + 1) ls) (ns : Body) :
    StartsBelow (3 * depth + 1) (outline ns depth ++ ls) := by
  cases ns with
  | nil => exact h
  | cons n ns =>
    rw [outline, List.append_assoc]
    exact (n.startsBelow_outline_iff depth _ _).2 (Nat.lt_succ_self _)

theorem Body.startsBelow_outlineOption {depth : Nat} {ls : List Line}
    (h : StartsBelow (3 * depth + 2) ls) (alternative : Option Body) :
    StartsBelow (3 * depth + 2) (outlineOption alternative depth ++ ls) := by
  cases alternative with
  | none => exact h
  | some body => exact StartsBelow.cons_iff.2 (Nat.lt_succ_self _)

theorem Branch.startsBelow_outline {depth : Nat} {ls : List Line}
    (h : StartsBelow (3 * depth + 3) ls) (branches : List Branch) :
    StartsBelow (3 * depth + 3) (outline branches depth ++ ls) := by
  match branches with
  | [] => exact h
  | ⟨condition, body⟩ :: branches => exact StartsBelow.cons_iff.2 (Nat.lt_succ_self _)

/-! In each of the following, what stands behind is of a lower level than all that can follow in
the same place: so the two outlines end where it begins. -/

mutual

theorem Node.outline_append_inj {n m : Node} {depth : Nat} {ls ls' : List Line}
    (h : n.outline depth ++ ls = m.outline depth ++ ls') (hls : StartsBelow (3 * depth + 1) ls)
    (hls' : StartsBelow (3 * depth + 1) ls') : n = m ∧ ls = ls' := by
  -- The first line tells nodes of different kinds apart.
  match n, m with
  | .text s, m =>
    cases m with
    | text t =>
      obtain ⟨hline, hrest⟩ := List.cons.inj h
      cases hline
      exact ⟨rfl, hrest⟩
    | _ => cases (List.cons.inj h).1
  | .expression path, m =>
    cases m with
    | expression path' =>
      obtain ⟨hline, hrest⟩ := List.cons.inj h
      cases hline
      exact ⟨rfl, hrest⟩
    | _ => cases (List.cons.inj h).1
  | .loop name collection body, m =>
    cases m with
    | loop name' collection' body' =>
      obtain ⟨hline, hrest⟩ := List.cons.inj h
      cases hline
      obtain ⟨rfl, hbehind⟩ :=
        Body.outline_append_inj hrest (hls.mono (by omega)) (hls'.mono (by omega))
      exact ⟨rfl, hbehind⟩
    | _ => cases (List.cons.inj h).1
  | .conditional branches alternative, m =>
    cases m with
    | conditional branches' alternative' =>
      rw [Node.outline, Node.outline, List.cons_append, List.cons_append, List.append_assoc,
        List.append_assoc] at h
      obtain ⟨-, hrest⟩ := List.cons.inj h
      obtain ⟨rfl, halternatives⟩ := Branch.outline_append_inj hrest
        (Body.startsBelow_outlineOption (hls.mono (by omega)) alternative)
        (Body.startsBelow_outlineOption (hls'.mono (by omega)) alternative')
      obtain ⟨rfl, hbehind⟩ := Body.outlineOption_append_inj halternatives hls hls'
      exact ⟨rfl, hbehind⟩
    | _ => cases (List.cons.inj h).1
termination_by structural n

theorem Branch.outline_append_inj {branches branches' : List Branch} {depth : Nat}
    {ls ls' : List Line}
    (h : Branch.outline branches depth ++ ls = Branch.outline branches' depth ++ ls')
    (hls : StartsBelow (3 * depth + 2) ls) (hls' : StartsBelow (3 * depth + 2) ls') :
    branches = branches' ∧ ls = ls' := by
  match branches, branches' with
  | [], [] => exact ⟨rfl, h⟩
  | [], ⟨condition, body⟩ :: branches' =>
    rw [show ls = _ from h] at hls
    exact absurd (StartsBelow.cons_iff.1 hls) (Nat.lt_irrefl _)
  | ⟨condition, body⟩ :: branches, [] =>
    rw [show ls' = _ from h.symm] at hls'
    exact absurd (StartsBelow.cons_iff.1 hls') (Nat.lt_irrefl _)
  | ⟨condition, body⟩ :: branches, ⟨condition', body'⟩ :: branches' =>
    rw [Branch.outline, Branch.outline, List.cons_append, List.cons_append, List.append_assoc,
      List.append_assoc] at h
    obtain ⟨hline, hrest⟩ := List.cons.inj h
    cases hline
    obtain ⟨rfl, hbranches⟩ := Body.outline_append_inj hrest
      (Branch.startsBelow_outline (hls.mono (by omega)) branches)
      (Branch.startsBelow_outline (hls'.mono (by omega)) branches')
    obtain ⟨rfl, hbehind⟩ := Branch.outline_append_inj hbranches hls hls'
    exact ⟨rfl, hbehind⟩
termination_by structural branches

theorem Body.outlineOption_append_inj {alternative alternative' : Option Body} {depth : Nat}
    {ls ls' : List Line}
    (h : Body.outlineOption alternative depth ++ ls = Body.outlineOption alternative' depth ++ ls')
    (hls : StartsBelow (3 * depth + 1) ls) (hls' : StartsBelow (3 * depth + 1) ls') :
    alternative = alternative' ∧ ls = ls' := by
  match alternative, alternative' with
  | none, none => exact ⟨rfl, h⟩
  | none, some body =>
    rw [show ls = _ from h] at hls
    exact absurd (StartsBelow.cons_iff.1 hls) (Nat.lt_irrefl _)
  | some body, none =>
    rw [show ls' = _ from h.symm] at hls'
    exact absurd (StartsBelow.cons_iff.1 hls') (Nat.lt_irrefl _)
  | some body, some body' =>
    obtain ⟨rfl, hbehind⟩ := Body.outline_append_inj (List.cons.inj h).2 (hls.mono (by omega))
      (hls'.mono (by omega))
    exact ⟨rfl, hbehind⟩
termination_by structural alternative

/-- Two bodies that give the same lines, with lines of lower level behind them, are the same. -/
theorem Body.outline_append_inj {ns ms : Body} {depth : Nat} {ls ls' : List Line}
    (h : Body.outline ns depth ++ ls = Body.outline ms depth ++ ls')
    (hls : StartsBelow (3 * depth) ls) (hls' : StartsBelow (3 * depth) ls') :
    ns = ms ∧ ls = ls' := by
  match ns, ms with
  | [], [] => exact ⟨rfl, h⟩
  | [], m :: ms =>
    rw [Body.outline, Body.outline, List.nil_append, List.append_assoc] at h
    rw [h, m.startsBelow_outline_iff] at hls
    exact absurd hls (Nat.lt_irrefl _)
  | n :: ns, [] =>
    rw [Body.outline, Body.outline, List.nil_append, List.append_assoc] at h
    rw [← h, n.startsBelow_outline_iff] at hls'
    exact absurd hls' (Nat.lt_irrefl _)
  | n :: ns, m :: ms =>
    rw [Body.outline, Body.outline, List.append_assoc, List.append_assoc] at h
    obtain ⟨rfl, hrest⟩ := Node.outline_append_inj h
      (Body.startsBelow_outline (hls.mono (by omega)) ns)
      (Body.startsBelow_outline (hls'.mono (by omega)) ms)
    obtain ⟨rfl, hbehind⟩ := Body.outline_append_inj hrest hls hls'
    exact ⟨rfl, hbehind⟩
termination_by structural ns

end

theorem Body.outline_injective (depth : Nat) :
    Function.Injective fun ns : Body => outline ns depth := by
  intro ns ms h
  have happend : outline ns depth ++ [] = outline ms depth ++ [] := congrArg (· ++ []) h
  exact (outline_append_inj happend (StartsBelow.nil _) (StartsBelow.nil _)).1

/-! ### The open body -/

/-- The lines of a block up to its open body. -/
def Frame.outline : Frame → Nat → List Line
  | branch earlier condition, depth =>
    ⟨depth, .conditional⟩ :: (Branch.outline earlier depth ++ [⟨depth, .branch condition⟩])
  | alternative branches, depth =>
    ⟨depth, .conditional⟩ :: (Branch.outline branches depth ++ [⟨depth, .alternative⟩])
  | loop name collection, depth => [⟨depth, .loop name collection⟩]

/-- Nothing of a block stands behind its open body. -/
theorem Frame.outline_fill (f : Frame) (body : Body) (depth : Nat) :
    (f.fill body).outline depth = f.outline depth ++ Body.outline body (depth + 1) := by
  cases f with
  | branch earlier condition =>
    rw [fill, Node.outline, outline, Branch.outline_append, Branch.outline_singleton,
      Body.outlineOption, List.append_nil, List.cons_append, List.append_assoc]
    rfl
  | alternative branches =>
    rw [fill, Node.outline, outline, Body.outlineOption, List.cons_append, List.append_assoc]
    rfl
  | loop name collection => rfl

/-! ### Edits -/

/-- What succeeds with a body adds lines at its end, the same at every depth of the body. -/
def AddsLines (f : Body → Except StatementFault Body) (lines : Nat → List Line) : Prop :=
  ∀ ns ns' depth, f ns = .ok ns' → Body.outline ns' depth = Body.outline ns depth ++ lines depth

theorem addsLines_append_singleton (n : Node) :
    AddsLines (fun ns => .ok (ns ++ [n])) (Body.outline [n]) := by
  rintro ns ns' depth h
  cases h
  exact Body.outline_append ns [n] depth

theorem AddsLines.editLast {whenEmpty : StatementFault} {f : Node → Except StatementFault Node}
    {lines : Nat → List Line}
    (hf : ∀ n n' depth, f n = .ok n' → n'.outline depth = n.outline depth ++ lines depth) :
    AddsLines (Body.editLast whenEmpty f) lines := by
  intro ns ns' depth h
  rcases List.eq_nil_or_concat ns with rfl | ⟨before, n, rfl⟩
  · cases h
  · rw [List.concat_eq_append] at h ⊢
    rw [Body.editLast_append_singleton] at h
    obtain ⟨n', hn, rfl⟩ := map_eq_ok_iff.1 h
    rw [Body.outline_append, Body.outline_append, Body.outline_singleton, Body.outline_singleton,
      hf n n' depth hn, List.append_assoc]

theorem addsLines_pushBranch (b : Branch) : AddsLines (Body.pushBranch b) (Branch.outline [b]) := by
  refine .editLast fun n n' depth h => ?_
  match n with
  | .conditional branches none =>
    cases h
    rw [Node.outline, Node.outline, Branch.outline_append, Body.outlineOption, List.append_nil,
      List.append_nil, List.cons_append]
  | .conditional branches (some body) | .loop _ _ _ | .text _ | .expression _ => cases h

theorem addsLines_openAlternative :
    AddsLines Body.openAlternative (Body.outlineOption (some [])) := by
  refine .editLast fun n n' depth h => ?_
  match n with
  | .conditional (b :: branches) none =>
    cases h
    rw [Node.outline, Node.outline, Body.outlineOption, List.append_nil, List.cons_append]
  | .conditional [] _ | .conditional (_ :: _) (some _) | .loop _ _ _ | .text _ | .expression _ =>
    cases h

/-- The open path leads to the end of the outline. -/
theorem AddsLines.editAt {f : Body → Except StatementFault Body} {lines : Nat → List Line}
    (hf : AddsLines f lines) {levels : Nat} {ns ns' : Body} (depth : Nat)
    (h : Body.editAt f levels ns = .ok ns') :
    Body.outline ns' depth = Body.outline ns depth ++ lines (depth + levels) := by
  induction levels generalizing ns ns' depth with
  | zero => exact hf ns ns' depth h
  | succ levels ih =>
    rw [Body.editAt] at h
    cases hopen : Body.openLast ns with
    | error e => rw [hopen] at h; cases h
    | ok opened =>
      obtain ⟨before, frame, inner⟩ := opened
      rw [hopen] at h
      obtain ⟨inner', hinner, rfl⟩ := map_eq_ok_iff.1 h
      -- The open body is the end of the last node, so what is new in it is the end of the whole.
      have hend : Body.outline inner' (depth + 1) =
          Body.outline inner (depth + 1) ++ lines (depth + (levels + 1)) := by
        rw [ih (depth + 1) hinner, Nat.add_right_comm, Nat.add_assoc]
      rw [← Body.append_fill_of_openLast hopen, Body.outline_append, Body.outline_append,
        Body.outline_singleton, Body.outline_singleton, frame.outline_fill, frame.outline_fill,
        hend, List.append_assoc, List.append_assoc]

theorem AddsLines.edit {f : Body → Except StatementFault Body} {lines : Nat → List Line}
    (hf : AddsLines f lines) {ns ns' : Body} {depth : Int} (h : Body.edit f depth ns = .ok ns') :
    Body.outline ns' 0 = Body.outline ns 0 ++ lines depth.toNat := by
  rw [Body.edit] at h
  split at h
  · cases h
  · cases hedit : Body.editAt f depth.toNat ns with
    | error e => rw [hedit] at h; cases h
    | ok ns'' =>
      rw [hedit] at h
      cases h
      rw [hf.editAt 0 hedit, Nat.zero_add]

/-- An edit of a tree at a depth. -/
inductive Edit where
  | node (n : Node) (depth : Int)
  | branch (b : Branch) (depth : Int)
  | alternative (depth : Int)

namespace Edit

/-- The tree after an edit, or the fault of the edit. -/
def apply : Edit → Body → Except Fault Body
  | node n depth, ns => ns.addNode n depth
  | branch b depth, ns => ns.addBranch b depth
  | alternative depth, ns => ns.addAlternative depth

/-- The lines that an edit adds when it succeeds. -/
def lines : Edit → List Line
  | node n depth => Body.outline [n] depth.toNat
  | branch b depth => Branch.outline [b] depth.toNat
  | alternative depth => Body.outlineOption (some []) depth.toNat

theorem outline_of_apply {e : Edit} {ns ns' : Body} (h : e.apply ns = .ok ns') :
    Body.outline ns' 0 = Body.outline ns 0 ++ e.lines := by
  cases e with
  | node n depth => exact (addsLines_append_singleton n).edit h
  | branch b depth => exact (addsLines_pushBranch b).edit h
  | alternative depth => exact addsLines_openAlternative.edit h

/-- The tree after several edits. One that fails leaves the tree as it is. -/
def run : List Edit → Body → Body
  | [], ns => ns
  | e :: es, ns =>
    match e.apply ns with
    | .ok ns' => run es ns'
    | .error _ => run es ns

/-- Those of several edits that succeed, each with the tree that the ones before it leave. -/
def succeeding : List Edit → Body → List Edit
  | [], _ => []
  | e :: es, ns =>
    match e.apply ns with
    | .ok ns' => e :: succeeding es ns'
    | .error _ => succeeding es ns

/-- Several edits add the lines of those that succeed, in their order. -/
theorem outline_run (es : List Edit) (ns : Body) :
    Body.outline (run es ns) 0 = Body.outline ns 0 ++ (succeeding es ns).flatMap lines := by
  induction es generalizing ns with
  | nil => exact (List.append_nil _).symm
  | cons e es ih =>
    rw [run, succeeding]
    cases h : e.apply ns with
    | ok ns' =>
      rw [List.flatMap_cons, ← List.append_assoc, ← outline_of_apply h]
      exact ih ns'
    | error fault => exact ih ns

end Edit

/-! ### The result -/

namespace Body

/-- An outline determines its tree. Every edit that succeeds adds its own lines at the end of the
outline, whatever the tree and the depth; so a sequence of edits adds the lines of those that
succeed and keeps all lines that are there. -/
theorem outline_injective_and_outline_of_edit :
    (∀ depth, Function.Injective fun ns : Body => outline ns depth) ∧
    (∀ (ns ns' : Body) (n : Node) (depth : Nat), ns.addNode n depth = .ok ns' →
      outline ns' 0 = outline ns 0 ++ outline [n] depth) ∧
    (∀ (ns ns' : Body) (b : Branch) (depth : Nat), ns.addBranch b depth = .ok ns' →
      outline ns' 0 =
        outline ns 0 ++ [⟨depth, .branch b.condition⟩] ++ outline b.body (depth + 1)) ∧
    (∀ (ns ns' : Body) (depth : Nat), ns.addAlternative depth = .ok ns' →
      outline ns' 0 = outline ns 0 ++ [⟨depth, .alternative⟩]) ∧
    ∀ (ns : Body) (edits : List Edit), outline (Edit.run edits ns) 0 =
      outline ns 0 ++ (Edit.succeeding edits ns).flatMap Edit.lines := by
  refine ⟨outline_injective, fun ns ns' n depth h => ?_, fun ns ns' b depth h => ?_,
    fun ns ns' depth h => ?_, fun ns edits => Edit.outline_run edits ns⟩
  · exact Edit.outline_of_apply (e := .node n depth) h
  · have hbranch : outline ns' 0 = outline ns 0 ++ Branch.outline [b] depth :=
      Edit.outline_of_apply (e := .branch b depth) h
    rw [hbranch, Branch.outline_singleton, List.append_assoc]
    rfl
  · exact Edit.outline_of_apply (e := .alternative depth) h

theorem outline_injective_and_outline_of_edit_of_rows :
    let rows (branches : List Branch) (alternative : Option Body) : Body :=
      [.text "<ul>", .loop "row" "rows" [.text "<li>", .conditional branches alternative]]
    ((rows [⟨"row.a", []⟩] none).addNode (.expression "row.x") 2 =
        .ok (rows [⟨"row.a", [.expression "row.x"]⟩] none) ∧
      outline (rows [⟨"row.a", [.expression "row.x"]⟩] none) 0 =
        outline (rows [⟨"row.a", []⟩] none) 0 ++ outline [.expression "row.x"] 2) ∧
    ((rows [⟨"row.a", []⟩] none).addBranch ⟨"row.b", [.text "b"]⟩ 1 =
        .ok (rows [⟨"row.a", []⟩, ⟨"row.b", [.text "b"]⟩] none) ∧
      outline (rows [⟨"row.a", []⟩, ⟨"row.b", [.text "b"]⟩] none) 0 =
        outline (rows [⟨"row.a", []⟩] none) 0 ++ [⟨1, .branch "row.b"⟩] ++ outline [.text "b"] 2) ∧
    ((rows [⟨"row.a", []⟩] none).addAlternative 1 = .ok (rows [⟨"row.a", []⟩] (some [])) ∧
      outline (rows [⟨"row.a", []⟩] (some [])) 0 =
        outline (rows [⟨"row.a", []⟩] none) 0 ++ [⟨1, .alternative⟩]) := by
  intro rows
  obtain ⟨-, hnode, hbranch, halternative, -⟩ := outline_injective_and_outline_of_edit
  exact ⟨⟨rfl, hnode _ _ (.expression "row.x") 2 rfl⟩,
    ⟨rfl, hbranch _ _ ⟨"row.b", [.text "b"]⟩ 1 rfl⟩, ⟨rfl, halternative _ _ 1 rfl⟩⟩

end Body

end Stencil
