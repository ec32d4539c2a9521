import Stencil.Proofs.Body.Grows
import Stencil.Proofs.Progress.Events
import Stencil.Proofs.Reader

/-!
# A stack of open blocks

A draft keeps its open blocks as frames, which are always blocks. Another way to build the tree is
to keep the blocks themselves, whole, on a stack: content goes to the open body of the topmost one,
`}` takes it from the stack, and unless `else` puts it back with one more body, it becomes the last
node of the body below. Here every access to an open body may fail, and so may `else`, because not
every node is a block.

It never does. A step keeps all nodes on the stack, and the one that was taken from it last, loops
or conditionals with a branch, so the scope of new content is always there, and the tree only grows.
An `else` without a block that was just taken from the stack is the only way to a fault that the
template is not to blame for.

## Main definitions

* `Stencil.Node.IsBlock`: loops, and conditionals with at least one branch.
* `Stencil.OpenStack`, `Stencil.OpenStack.scope`: the stack, and the body that new content goes to.
* `Stencil.OpenStack.apply`, `Stencil.OpenStack.finish`, `Stencil.OpenStack.ofItems`: the events,
  the end, and the body of a sequence of items.
* `Stencil.OpenStack.tree`: the tree so far, with all blocks in their places.
* `Stencil.OpenStack.IsSound`: only blocks are on the stack or were taken from it last.
* `Stencil.StatementFault.internal`: the faults of nodes that are no blocks.

## Main results

* `Stencil.OpenStack.IsSound.exists_scope`: the scope of new content, and its place in the tree.
* `Stencil.OpenStack.IsSound.apply_cases`: what one step keeps, and its faults.
* `Stencil.OpenStack.IsSound.of_applyAll`, `Stencil.OpenStack.IsSound.not_isInternal_of_applyAll`:
  the same for a run.
-/

namespace Stencil

/-! ### Blocks -/

/-- The nodes that can be open: loops, and conditionals with at least one branch. -/
def Node.IsBlock : Node → Prop
  | loop _ _ _ => True
  | conditional branches _ => branches ≠ []
  | _ => False

variable {n m : Node} {b : Branch} {fault : StatementFault}

namespace Node

/-- A block has an open body. -/
theorem IsBlock.exists_openBody (h : n.IsBlock) : ∃ frame body, n.openBody = .ok (frame, body) := by
  cases n with
  | text s => cases h
  | expression path => cases h
  | loop name collection body => exact ⟨_, _, rfl⟩
  | conditional branches alternative =>
    cases alternative with
    | some body => exact ⟨_, _, rfl⟩
    | none =>
      obtain ⟨earlier, last, rfl⟩ := (List.eq_nil_or_concat branches).resolve_left h
      exact ⟨_, _, by rw [openBody, List.concat_eq_append, List.getLast?_concat]⟩

theorem isBlock_of_pushBranch (h : n.pushBranch b = .ok m) : m.IsBlock := by
  cases n with
  | conditional branches alternative =>
    cases alternative with
    | none =>
      cases h
      exact List.append_ne_nil_of_right_ne_nil branches (List.cons_ne_nil b [])
    | some body => cases h
  | _ => cases h

theorem isBlock_of_openAlternative (h : n.openAlternative = .ok m) : m.IsBlock := by
  cases n with
  | conditional branches alternative =>
    cases branches with
    | nil => cases h
    | cons b bs =>
      cases alternative with
      | none =>
        cases h
        exact List.cons_ne_nil b bs
      | some body => cases h
  | _ => cases h

/-- The node with more nodes at the end of its open body, if it has one. -/
def append (n : Node) (inner : Body) : Node :=
  match n.openBody with
  | .ok (frame, body) => frame.fill (body ++ inner)
  | .error _ => n

theorem append_of_openBody {frame : Frame} {body : Body} (h : n.openBody = .ok (frame, body))
    (inner : Body) : n.append inner = frame.fill (body ++ inner) := by
  rw [append, h]

@[simp] theorem append_nil (n : Node) : n.append [] = n := by
  rw [append]
  split
  · rename_i frame body h
    rw [List.append_nil, fill_of_openBody h]
  · rfl

/-- A block grows with what is at the end of its open body. -/
theorem append_grows (n : Node) {inner inner' : Body} (h : Body.Grows inner inner') :
    (n.append inner).Grows (n.append inner') := by
  rw [append, append]
  split
  · rename_i frame body _
    exact frame.grows_fill (h.append_left body)
  · exact Grows.refl n

end Node

/-- Whether a frame makes a block does not depend on what it is filled with. -/
theorem Frame.isBlock_fill_iff (f : Frame) {body body' : Body} :
    (f.fill body).IsBlock ↔ (f.fill body').IsBlock := by
  cases f with
  | branch earlier condition =>
    exact iff_of_true (List.append_ne_nil_of_right_ne_nil earlier (List.cons_ne_nil _ []))
      (List.append_ne_nil_of_right_ne_nil earlier (List.cons_ne_nil _ []))
  | alternative branches => exact Iff.rfl
  | loop name collection => exact Iff.rfl

/-- The faults of nodes that are no blocks, and of places where there is no node. -/
def StatementFault.internal : List StatementFault :=
  [noBranch, cannotNest, elseWithoutBranch, elseWithoutIf, elseIfWithoutIf, noOpenBlock]

/-- The template is not to blame for the fault. -/
def Fault.IsInternal (fault : Fault) : Prop :=
  ∃ cause ∈ StatementFault.internal, fault = .statement cause

namespace Node

/-- Only a conditional that has its alternative, or a loop, cannot have one more branch. -/
theorem IsBlock.pushBranch_eq_error (h : n.IsBlock) (hn : n.pushBranch b = .error fault) :
    fault ∉ StatementFault.internal := by
  cases n with
  | text s => cases h
  | expression path => cases h
  | loop name collection body =>
    cases hn
    decide
  | conditional branches alternative =>
    cases alternative with
    | none => cases hn
    | some body =>
      cases hn
      simp [StatementFault.internal]

/-- Only a conditional that has its alternative, or a loop, cannot have one. -/
theorem IsBlock.openAlternative_eq_error (h : n.IsBlock) (hn : n.openAlternative = .error fault) :
    fault ∉ StatementFault.internal := by
  cases n with
  | text s => cases h
  | expression path => cases h
  | loop name collection body =>
    cases hn
    decide
  | conditional branches alternative =>
    cases branches with
    | nil => exact absurd rfl h
    | cons b bs =>
      cases alternative with
      | none => cases hn
      | some body =>
        cases hn
        decide

end Node

/-! ### The stack -/

/-- A template under way, with its open blocks on a stack. -/
structure OpenStack where
  /-- The nodes outside all open blocks. -/
  root : Body
  /-- The blocks whose `}` has not been read yet, innermost first. -/
  opened : List Node
  /-- The block that was taken from the stack last, until it is known whether `else` follows. -/
  held : Option Node

namespace OpenStack

/-- Nothing has been read. -/
def empty : OpenStack := ⟨[], [], none⟩

/-- The body that new content goes to, and the stack with another body in its place. -/
def scope (s : OpenStack) : Except StatementFault (Body × (Body → OpenStack)) :=
  match s.opened with
  | [] => .ok (s.root, fun body => { s with root := body })
  | n :: opened =>
    n.openBody.map fun p => (p.2, fun body => { s with opened := p.1.fill body :: opened })

/-- The stack with its scope edited. -/
def extend (edit : Body → Body) (s : OpenStack) : Except Fault OpenStack :=
  match s.scope with
  | .error fault => .error (.statement fault)
  | .ok (body, put) => .ok (put (edit body))

/-- The block that was taken from the stack last becomes a node of the scope. -/
def settle (s : OpenStack) : Except Fault OpenStack :=
  match s.held with
  | none => .ok s
  | some n => { s with held := none }.extend (· ++ [n])

/-- One more block is open. -/
def push (n : Node) (s : OpenStack) : OpenStack :=
  { s with opened := n :: s.opened }

/-- The innermost block is taken from the stack. -/
def pop (s : OpenStack) : Except Fault OpenStack :=
  match s.opened with
  | [] => .error (.brackets .strayClose)
  | n :: opened => .ok { s with opened := opened, held := some n }

/-- The block that was taken from the stack last is open again, with one more body; the fault is
that of no such block. -/
def resume (whenNone : StatementFault) (edit : Node → Except StatementFault Node) (s : OpenStack) :
    Except Fault OpenStack :=
  match s.held with
  | none => .error (.statement whenNone)
  | some n =>
    match edit n with
    | .error fault => .error (.statement fault)
    | .ok n' => .ok { s with opened := n' :: s.opened, held := none }

/-- The stack after an event. -/
def apply (s : OpenStack) : Event → Except Fault OpenStack
  | .text t => s.settle.bind (extend fun body => body.appendText t)
  | .expression path => s.settle.bind (extend (· ++ [.expression path]))
  | .openIf condition => s.settle.map (push (.conditional [.ofCondition condition] none))
  | .openFor name collection => s.settle.map (push (.loop name collection []))
  | .close => s.settle.bind pop
  | .elseIf condition => s.resume .elseIfWithoutIf (Node.pushBranch (.ofCondition condition))
  | .otherwise => s.resume .elseWithoutIf Node.openAlternative

/-- The stack after a sequence of events. -/
def applyAll (s : OpenStack) (events : List Event) : Except Fault OpenStack :=
  events.foldlM apply s

/-- The whole tree, when every block has been closed. -/
def finish (s : OpenStack) : Except Fault Body :=
  s.settle.bind fun s' =>
    if s'.opened.isEmpty then .ok s'.root
    else .error (.brackets (.neverClosed s'.opened.length))

/-- What a run comes to behind its events. -/
def finishAt (fault? : Option StatementFault) (s : OpenStack) : Except Fault Body :=
  match fault? with
  | none => s.finish
  | some fault => .error (.statement fault)

/-- The body that a sequence of items describes, with its open blocks kept on a stack. -/
def ofItems (items : List Item) : Except Fault Body :=
  (empty.applyAll (Reader.content.read items).1).bind (finishAt (Reader.content.read items).2)

/-- The tree of a stack of blocks, with more nodes at the end of the innermost one. -/
def treeAround (root : Body) : List Node → Body → Body
  | [], inner => root ++ inner
  | n :: opened, inner => treeAround root opened [n.append inner]

/-- The tree so far, with all blocks in their places. -/
def tree (s : OpenStack) : Body :=
  treeAround s.root s.opened s.held.toList

theorem scope_cons (root : Body) (n : Node) (opened : List Node) (held : Option Node) :
    scope ⟨root, n :: opened, held⟩ =
      n.openBody.map fun p => (p.2, fun body => ⟨root, p.1.fill body :: opened, held⟩) := rfl

theorem applyAll_cons (s : OpenStack) (e : Event) (es : List Event) :
    s.applyAll (e :: es) = (s.apply e).bind fun s' => s'.applyAll es := by
  rw [applyAll, List.foldlM_cons]
  rfl

theorem applyAll_append (s : OpenStack) (es fs : List Event) :
    s.applyAll (es ++ fs) = (s.applyAll es).bind fun s' => s'.applyAll fs := by
  rw [applyAll, List.foldlM_append]
  rfl

/-- A tree grows with what is at the end of its innermost open block. -/
theorem treeAround_grows (root : Body) (opened : List Node) {inner inner' : Body}
    (h : Body.Grows inner inner') :
    Body.Grows (treeAround root opened inner) (treeAround root opened inner') := by
  induction opened generalizing inner inner' with
  | nil => exact h.append_left root
  | cons n opened ih => exact ih (Body.grows_singleton (n.append_grows h))

/-! ### What a step keeps -/

/-- Only blocks are on the stack, and only a block was taken from it last. -/
structure IsSound (s : OpenStack) : Prop where
  opened : ∀ n ∈ s.opened, n.IsBlock
  held : ∀ n ∈ s.held, n.IsBlock

theorem isSound_empty : empty.IsSound :=
  ⟨List.forall_mem_nil _, by rintro n ⟨⟩⟩

variable {s s' : OpenStack} {n : Node}

theorem IsSound.push (h : s.IsSound) (hn : n.IsBlock) : (s.push n).IsSound :=
  ⟨List.forall_mem_cons.2 ⟨hn, h.opened⟩, h.held⟩

/-- The scope is always there. What it is replaced by stands at its place in the tree, and the rest
of the tree stays. -/
theorem IsSound.exists_scope (h : s.IsSound) :
    ∃ (body : Body) (put : Body → OpenStack) (around : Body → Body), s.scope = .ok (body, put) ∧
      (∀ inner, treeAround s.root s.opened inner = around (body ++ inner)) ∧
      (∀ b b', Body.Grows b b' → Body.Grows (around b) (around b')) ∧
      ∀ body', (put body').IsSound ∧ (put body').held = s.held ∧
        ∀ inner,
          treeAround (put body').root (put body').opened inner = around (body' ++ inner) := by
  obtain ⟨root, opened, held⟩ := s
  cases opened with
  | nil =>
    exact ⟨root, fun body => ⟨body, [], held⟩, id, rfl, fun _ => rfl, fun _ _ hgrow => hgrow,
      fun _ => ⟨⟨List.forall_mem_nil _, h.held⟩, rfl, fun _ => rfl⟩⟩
  | cons n opened =>
    obtain ⟨hn, hopened⟩ := List.forall_mem_cons.1 h.opened
    obtain ⟨frame, body, hbody⟩ := hn.exists_openBody
    have hfill : frame.fill body = n := Node.fill_of_openBody hbody
    refine ⟨body, fun body' => ⟨root, frame.fill body' :: opened, held⟩,
      fun b => treeAround root opened [frame.fill b], ?_, fun inner => ?_, fun b b' hgrow => ?_,
      fun body' => ⟨⟨?_, h.held⟩, rfl, fun inner => ?_⟩⟩
    · rw [scope_cons, hbody]
      rfl
    · rw [treeAround, Node.append_of_openBody hbody]
    · exact treeAround_grows root opened (Body.grows_singleton (frame.grows_fill hgrow))
    · have hblock : (frame.fill body').IsBlock := frame.isBlock_fill_iff.1 (hfill ▸ hn)
      exact List.forall_mem_cons.2 ⟨hblock, hopened⟩
    · rw [treeAround, Node.append_of_openBody (Frame.openBody_fill frame body')]

/-- Settling changes nothing in the tree. -/
theorem IsSound.exists_settle (h : s.IsSound) :
    ∃ s', s.settle = .ok s' ∧ s'.IsSound ∧ s'.held = none ∧ s'.tree = s.tree := by
  obtain ⟨root, opened, held⟩ := s
  cases held with
  | none => exact ⟨⟨root, opened, none⟩, rfl, h, rfl, rfl⟩
  | some n =>
    have hfree : IsSound ⟨root, opened, none⟩ := ⟨h.opened, by rintro n ⟨⟩⟩
    obtain ⟨body, put, around, hscope, htree, -, hput⟩ := hfree.exists_scope
    obtain ⟨hsound, hheld, htree'⟩ := hput (body ++ [n])
    refine ⟨put (body ++ [n]), ?_, hsound, hheld, ?_⟩
    · rw [settle]
      show extend _ ⟨root, opened, none⟩ = _
      rw [extend, hscope]
    · rw [tree, hheld, htree', tree, Option.toList_some, htree, Option.toList_none, List.append_nil]

/-- Behind a settled block, an edit by which the scope grows lets the tree grow. -/
theorem IsSound.exists_extend (h : s.IsSound) (hheld : s.held = none) {edit : Body → Body}
    (hedit : ∀ body, Body.Grows body (edit body)) :
    ∃ s', s.extend edit = .ok s' ∧ s'.IsSound ∧ Body.Grows s.tree s'.tree := by
  obtain ⟨body, put, around, hscope, htree, hgrows, hput⟩ := h.exists_scope
  obtain ⟨hsound, hheld', htree'⟩ := hput (edit body)
  refine ⟨put (edit body), by rw [extend, hscope], hsound, ?_⟩
  rw [tree, tree, hheld', hheld, htree, htree', Option.toList_none, List.append_nil,
    List.append_nil]
  exact hgrows body (edit body) (hedit body)

/-- A block that opens is a new node of the tree. -/
theorem tree_grows_push (hheld : s.held = none) (n : Node) : Body.Grows s.tree (s.push n).tree := by
  rw [tree, tree, push, hheld, Option.toList_none, treeAround, Node.append_nil]
  exact treeAround_grows s.root s.opened trivial

/-- Taking a block from the stack changes nothing in the tree. -/
theorem IsSound.pop_cases (h : s.IsSound) (hheld : s.held = none) :
    (∃ s', s.pop = .ok s' ∧ s'.IsSound ∧ s'.tree = s.tree ∧ s'.held.isSome = true) ∨
      s.pop = .error (.brackets .strayClose) := by
  obtain ⟨root, opened, held⟩ := s
  obtain rfl : held = none := hheld
  cases opened with
  | nil => exact .inr rfl
  | cons n opened =>
    obtain ⟨hn, hopened⟩ := List.forall_mem_cons.1 h.opened
    refine .inl ⟨⟨root, opened, some n⟩, rfl, ⟨hopened, ?_⟩, ?_, rfl⟩
    · rintro m ⟨⟩
      exact hn
    · rw [tree, tree, Option.toList_none, treeAround, Node.append_nil]
      rfl

/-- Opening a block once more lets it grow. -/
theorem IsSound.resume_cases (h : s.IsSound) (whenNone : StatementFault)
    (edit : Node → Except StatementFault Node)
    (hok : ∀ n m, edit n = .ok m → m.IsBlock ∧ n.Grows m)
    (herror : ∀ n fault, n.IsBlock → edit n = .error fault → fault ∉ StatementFault.internal) :
    (∃ s', s.resume whenNone edit = .ok s' ∧ s'.IsSound ∧ Body.Grows s.tree s'.tree) ∨
      ∃ fault, s.resume whenNone edit = .error fault ∧ (fault.IsInternal → s.held = none) := by
  obtain ⟨root, opened, held⟩ := s
  cases held with
  | none => exact .inr ⟨.statement whenNone, rfl, fun _ => rfl⟩
  | some n =>
    have hn : n.IsBlock := h.held n rfl
    cases hedit : edit n with
    | error fault =>
      refine .inr ⟨.statement fault, ?_, ?_⟩
      · simp only [resume, hedit]
      · rintro ⟨cause, hcause, heq⟩
        obtain rfl := Fault.statement.inj heq
        exact absurd hcause (herror n fault hn hedit)
    | ok m =>
      obtain ⟨hm, hgrows⟩ := hok n m hedit
      refine .inl ⟨⟨root, m :: opened, none⟩, ?_, ⟨?_, by rintro k ⟨⟩⟩, ?_⟩
      · simp only [resume, hedit]
      · exact List.forall_mem_cons.2 ⟨hm, h.opened⟩
      · rw [tree, tree, Option.toList_none, treeAround, Node.append_nil]
        exact treeAround_grows root opened (Body.grows_singleton hgrows)

/-- One step keeps the stack sound and lets the tree grow, or it is a fault of the template, unless
an `else` comes when no block was taken from the stack last. -/
theorem IsSound.apply_cases (h : s.IsSound) (e : Event) :
    (∃ s', s.apply e = .ok s' ∧ s'.IsSound ∧ Body.Grows s.tree s'.tree ∧
        (e = .close → s'.held.isSome = true)) ∨
      ∃ fault, s.apply e = .error fault ∧
        (fault.IsInternal → e.isElse = true ∧ s.held = none) := by
  obtain ⟨s₀, hsettle, hsound₀, hheld₀, htree₀⟩ := h.exists_settle
  cases e with
  | text t =>
    obtain ⟨s', hs', hsound, hgrows⟩ :=
      hsound₀.exists_extend hheld₀ fun body => body.grows_appendText t
    refine .inl ⟨s', ?_, hsound, htree₀ ▸ hgrows, by rintro ⟨⟩⟩
    rw [apply, hsettle]
    exact hs'
  | expression path =>
    obtain ⟨s', hs', hsound, hgrows⟩ :=
      hsound₀.exists_extend hheld₀ fun body => body.grows_append [.expression path]
    refine .inl ⟨s', ?_, hsound, htree₀ ▸ hgrows, by rintro ⟨⟩⟩
    rw [apply, hsettle]
    exact hs'
  | openIf condition =>
    refine .inl ⟨s₀.push (.conditional [.ofCondition condition] none), ?_,
      hsound₀.push (List.cons_ne_nil _ []), htree₀ ▸ tree_grows_push hheld₀ _, by rintro ⟨⟩⟩
    rw [apply, hsettle]
    rfl
  | openFor name collection =>
    refine .inl ⟨s₀.push (.loop name collection []), ?_, hsound₀.push trivial,
      htree₀ ▸ tree_grows_push hheld₀ _, by rintro ⟨⟩⟩
    rw [apply, hsettle]
    rfl
  | close =>
    have happly : s.apply .close = s₀.pop := by
      rw [apply, hsettle]
      rfl
    rw [happly]
    rcases hsound₀.pop_cases hheld₀ with ⟨s', hs', hsound, htree, hheld⟩ | hstray
    · refine .inl ⟨s', hs', hsound, ?_, fun _ => hheld⟩
      rw [htree, htree₀]
      exact Body.Grows.refl s.tree
    · refine .inr ⟨_, hstray, ?_⟩
      rintro ⟨cause, -, ⟨⟩⟩
  | elseIf condition =>
    rcases h.resume_cases .elseIfWithoutIf (Node.pushBranch (.ofCondition condition))
      (fun n m hm => ⟨Node.isBlock_of_pushBranch hm, Node.grows_of_pushBranch hm⟩)
      (fun n fault hn hfault => hn.pushBranch_eq_error hfault) with
      ⟨s', hs', hsound, hgrows⟩ | ⟨fault, hfault, hinternal⟩
    · exact .inl ⟨s', hs', hsound, hgrows, by rintro ⟨⟩⟩
    · exact .inr ⟨fault, hfault, fun hf => ⟨rfl, hinternal hf⟩⟩
  | otherwise =>
    rcases h.resume_cases .elseWithoutIf Node.openAlternative
      (fun n m hm => ⟨Node.isBlock_of_openAlternative hm, Node.grows_of_openAlternative hm⟩)
      (fun n fault hn hfault => hn.openAlternative_eq_error hfault) with
      ⟨s', hs', hsound, hgrows⟩ | ⟨fault, hfault, hinternal⟩
    · exact .inl ⟨s', hs', hsound, hgrows, by rintro ⟨⟩⟩
    · exact .inr ⟨fault, hfault, fun hf => ⟨rfl, hinternal hf⟩⟩

/-! ### What a run keeps -/

/-- A run of any length keeps the stack sound and lets the tree grow. -/
theorem IsSound.of_applyAll (h : s.IsSound) {es : List Event} (hs : s.applyAll es = .ok s') :
    s'.IsSound ∧ Body.Grows s.tree s'.tree := by
  induction es generalizing s with
  | nil =>
    cases hs
    exact ⟨h, Body.Grows.refl _⟩
  | cons e es ih =>
    rw [applyAll_cons] at hs
    rcases h.apply_cases e with ⟨s₁, hs₁, hsound, hgrows, -⟩ | ⟨fault, hfault, -⟩
    · rw [hs₁] at hs
      obtain ⟨hsound', hgrows'⟩ := ih hsound hs
      exact ⟨hsound', hgrows.trans hgrows'⟩
    · rw [hfault] at hs
      cases hs

/-- The faults of orderly events are faults of the template. -/
theorem IsSound.not_isInternal_of_applyAll (h : s.IsSound) {closed : Bool} {es : List Event}
    (hes : Event.IsOrderly closed es) (hclosed : closed = true → s.held.isSome = true)
    {fault : Fault} (hs : s.applyAll es = .error fault) : ¬ fault.IsInternal := by
  induction es generalizing s closed with
  | nil => cases hs
  | cons e es ih =>
    obtain ⟨he, hes⟩ := hes
    rw [applyAll_cons] at hs
    rcases h.apply_cases e with ⟨s₁, hs₁, hsound, -, hheld⟩ | ⟨fault', hfault, hinternal⟩
    · rw [hs₁] at hs
      exact ih hsound hes (fun hclose => hheld (beq_iff_eq.1 hclose)) hs
    · rw [hfault] at hs
      cases hs
      intro hf
      obtain ⟨helse, hnone⟩ := hinternal hf
      have hsome := hclosed (he helse)
      rw [hnone] at hsome
      cases hsome

/-- At the end the tree is complete, or blocks are open. -/
theorem IsSound.finish_cases (h : s.IsSound) :
    s.finish = .ok s.tree ∨ ∃ count, s.finish = .error (.brackets (.neverClosed count)) := by
  obtain ⟨s₀, hsettle, -, hheld, htree⟩ := h.exists_settle
  have hfinish : s.finish = if s₀.opened.isEmpty then .ok s₀.root
      else .error (.brackets (.neverClosed s₀.opened.length)) := by
    rw [finish, hsettle]
    rfl
  rw [hfinish]
  split
  · rename_i hempty
    left
    rw [← htree, tree, hheld, List.isEmpty_iff.1 hempty, Option.toList_none, treeAround,
      List.append_nil]
  · exact .inr ⟨s₀.opened.length, rfl⟩

end OpenStack

end Stencil
