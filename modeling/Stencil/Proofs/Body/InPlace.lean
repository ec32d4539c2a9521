import Stencil.Proofs.Body.Outline

/-!
# Editing a tree where it stands

An edit gives a new tree or a fault. It can also be carried out on the tree where it stands: from
the last node into its open body, level by level, and there the change is written. Such an action
can fail at any level, and when it does, all that was written before stays.

The edits write nothing before they are sure to succeed, and to open a body and put it back changes
nothing. So an edit that fails leaves the tree as it was, and one that succeeds leaves the tree that
it gives.

## Main definitions

* `Stencil.onPart`: an action on a part of a whole.
* `Stencil.Performs`: what an action computes, and that it leaves no trace when it fails.
* `Stencil.Edit.inPlace`: an edit of a tree where it stands.

## Main results

* `Stencil.Performs.onPart`: an action on a part leaves no trace in the whole.
* `Stencil.Edit.performs_inPlace`: an edit in place is the edit.
-/

namespace Stencil

variable {ε σ τ : Type}

/-! ### Actions -/

/-- An action on a part of a whole. What is left of the part is put back, after a fault as well. -/
def onPart (put : τ → σ) (act : EStateM ε τ Unit) (part : τ) : EStateM.Result ε σ Unit :=
  match act part with
  | .ok _ left => .ok () (put left)
  | .error fault left => .error fault (put left)

/-- How an action ends that was begun on `s` and either writes its result there or fails before it
has written anything. -/
def withoutTrace (s : σ) : Except ε σ → EStateM.Result ε σ Unit
  | .ok s' => .ok () s'
  | .error fault => .error fault s

/-- The action leaves what the function gives, and what was there when the function fails. -/
def Performs (act : EStateM ε σ Unit) (f : σ → Except ε σ) : Prop :=
  ∀ s, act s = withoutTrace s (f s)

namespace Performs

variable {act : EStateM ε σ Unit} {f : σ → Except ε σ} {s s' : σ} {fault : ε}

theorem eq_ok_iff (h : Performs act f) : act s = .ok () s' ↔ f s = .ok s' := by
  rw [h s]
  cases f s with
  | ok t => exact ⟨fun heq => by cases heq; rfl, fun heq => by cases heq; rfl⟩
  | error e => exact iff_of_false nofun nofun

/-- A fault is that of the function, and it leaves no trace. -/
theorem eq_error_iff (h : Performs act f) :
    act s = .error fault s' ↔ f s = .error fault ∧ s' = s := by
  rw [h s]
  cases f s with
  | ok t => exact iff_of_false nofun fun heq => nomatch heq.1
  | error e =>
    constructor
    · intro heq
      cases heq
      exact ⟨rfl, rfl⟩
    · rintro ⟨heq, rfl⟩
      cases heq
      rfl

/-- An action on a part leaves no trace in the whole, which is what it is with that part. -/
theorem onPart {act : EStateM ε τ Unit} {f : τ → Except ε τ} (h : Performs act f) {put : τ → σ}
    {part : τ} (hs : put part = s) :
    Stencil.onPart put act part = withoutTrace s ((f part).map put) := by
  rw [Stencil.onPart, h part, ← hs]
  cases f part <;> rfl

/-- Faults can be given another form. -/
theorem adaptExcept {ε' : Type} (h : Performs act f) (g : ε → ε') :
    Performs (EStateM.adaptExcept g act) fun s => (f s).mapError g := by
  intro s
  rw [EStateM.adaptExcept, h s]
  show _ = withoutTrace s ((f s).mapError g)
  cases f s <;> rfl

end Performs

/-! ### The last conditional -/

/-- Gives the conditional one more branch. -/
def Node.pushBranchInPlace (b : Branch) : EStateM StatementFault Node Unit := do
  match ← get with
  | conditional _ (some _) => throw (.elseIfAfterElse b.condition)
  | conditional branches none => set (conditional (branches ++ [b]) none)
  | loop _ _ _ => throw .elseIfAfterLoop
  | _ => throw .elseIfWithoutIf

/-- Gives the conditional an empty alternative. -/
def Node.openAlternativeInPlace : EStateM StatementFault Node Unit := do
  match ← get with
  | conditional [] _ => throw .elseWithoutBranch
  | conditional (_ :: _) (some _) => throw .duplicateElse
  | conditional (b :: bs) none => set (conditional (b :: bs) (some []))
  | loop _ _ _ => throw .elseAfterLoop
  | _ => throw .elseWithoutIf

theorem Node.performs_pushBranchInPlace (b : Branch) :
    Performs (pushBranchInPlace b) (pushBranch b) := by
  intro n
  match n with
  | .conditional _ (some _) | .conditional _ none | .loop _ _ _ | .text _ | .expression _ => rfl

theorem Node.performs_openAlternativeInPlace :
    Performs openAlternativeInPlace openAlternative := by
  intro n
  match n with
  | .conditional [] _ | .conditional (_ :: _) (some _) | .conditional (_ :: _) none
  | .loop _ _ _ | .text _ | .expression _ => rfl

namespace Body

/-- An action on the last node; the fault is that of a body without nodes. -/
def onLast (whenEmpty : StatementFault) (act : EStateM StatementFault Node Unit) :
    EStateM StatementFault Body Unit := fun ns =>
  match ns.getLast? with
  | none => .error whenEmpty ns
  | some n => onPart (fun n' => ns.dropLast ++ [n']) act n

theorem performs_onLast {act : EStateM StatementFault Node Unit}
    {f : Node → Except StatementFault Node} (h : Performs act f) (whenEmpty : StatementFault) :
    Performs (onLast whenEmpty act) (editLast whenEmpty f) := by
  intro ns
  rw [onLast, editLast]
  cases hlast : ns.getLast? with
  | none => rfl
  | some n =>
    obtain ⟨before, rfl⟩ := List.getLast?_eq_some_iff.1 hlast
    exact h.onPart (congrArg (· ++ [n]) List.dropLast_concat)

/-- Appends a node. -/
def appendInPlace (n : Node) : EStateM StatementFault Body Unit :=
  modify (· ++ [n])

theorem performs_appendInPlace (n : Node) :
    Performs (appendInPlace n) fun ns => .ok (ns ++ [n]) := fun _ => rfl

/-! ### Down the open path -/

/-- An action some levels down the open path. -/
def inOpenBody (act : EStateM StatementFault Body Unit) : Nat → EStateM StatementFault Body Unit
  | 0, ns => act ns
  | depth + 1, ns =>
    match openLast ns with
    | .error fault => .error fault ns
    | .ok (before, frame, inner) =>
      onPart (fun inner' => before ++ [frame.fill inner']) (inOpenBody act depth) inner

theorem performs_inOpenBody {act : EStateM StatementFault Body Unit}
    {f : Body → Except StatementFault Body} (h : Performs act f) (depth : Nat) :
    Performs (inOpenBody act depth) (editAt f depth) := by
  induction depth with
  | zero => exact h
  | succ depth ih =>
    intro ns
    rw [inOpenBody, editAt]
    cases hopen : openLast ns with
    | error fault => rfl
    | ok opened => exact ih.onPart (append_fill_of_openLast hopen)

/-- An action at a depth that may be negative, which is a fault of the braces. -/
def atDepth (act : EStateM StatementFault Body Unit) (depth : Int) : EStateM Fault Body Unit :=
  if depth < 0 then throw (.brackets (.negativeDepth depth))
  else EStateM.adaptExcept .statement (inOpenBody act depth.toNat)

theorem performs_atDepth {act : EStateM StatementFault Body Unit}
    {f : Body → Except StatementFault Body} (h : Performs act f) (depth : Int) :
    Performs (atDepth act depth) (edit f depth) := by
  intro ns
  rw [atDepth, edit]
  split
  · rfl
  · exact (performs_inOpenBody h depth.toNat).adaptExcept Fault.statement ns

end Body

/-! ### Edits -/

/-- An edit of a tree where it stands. -/
def Edit.inPlace : Edit → EStateM Fault Body Unit
  | node n depth => Body.atDepth (Body.appendInPlace n) depth
  | branch b depth =>
    Body.atDepth (Body.onLast .elseIfWithoutIf (Node.pushBranchInPlace b)) depth
  | alternative depth =>
    Body.atDepth (Body.onLast .elseWithoutIf Node.openAlternativeInPlace) depth

/-- An edit in place leaves the tree that the edit gives, and no trace when the edit fails. -/
theorem Edit.performs_inPlace (e : Edit) : Performs e.inPlace e.apply := by
  cases e with
  | node n depth => exact Body.performs_atDepth (Body.performs_appendInPlace n) depth
  | branch b depth =>
    exact Body.performs_atDepth (Body.performs_onLast (Node.performs_pushBranchInPlace b) _) depth
  | alternative depth =>
    exact Body.performs_atDepth (Body.performs_onLast Node.performs_openAlternativeInPlace _) depth

end Stencil
