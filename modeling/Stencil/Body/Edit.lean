import Stencil.Body.Frame

/-!
# Growing a body in place

A tree of nodes grows at its right edge. The *open path* of a body leads from its last node into the
open body of that node, from there into the open body of the last node in it, and so on; a depth
counts how many levels of this path to go down. At any depth a node can be appended, and the last
conditional there can get another branch or its alternative.

An edit gives the whole new body or a fault.

## Main definitions

* `Stencil.Node.pushBranch`, `Stencil.Node.openAlternative`: a conditional with one more body.
* `Stencil.Body.pushBranch`, `Stencil.Body.openAlternative`: the same for the last node of a body.
* `Stencil.Body.editAt`: an edit of the body at some depth.
* `Stencil.Body.addNode`, `Stencil.Body.addBranch`, `Stencil.Body.addAlternative`: the edits.
* `Stencil.Body.appendText`: text that joins the text before it.
-/

namespace Stencil

/-! ### The last conditional -/

/-- The conditional with one more branch. -/
def Node.pushBranch (b : Branch) : Node → Except StatementFault Node
  | conditional _ (some _) => .error (.elseIfAfterElse b.condition)
  | conditional branches none => .ok (conditional (branches ++ [b]) none)
  | loop _ _ _ => .error .elseIfAfterLoop
  | text _ => .error .elseIfWithoutIf
  | expression _ => .error .elseIfWithoutIf

/-- The conditional with an empty alternative. -/
def Node.openAlternative : Node → Except StatementFault Node
  | conditional [] _ => .error .elseWithoutBranch
  | conditional (_ :: _) (some _) => .error .duplicateElse
  | conditional (b :: bs) none => .ok (conditional (b :: bs) (some []))
  | loop _ _ _ => .error .elseAfterLoop
  | text _ => .error .elseWithoutIf
  | expression _ => .error .elseWithoutIf

namespace Body

/-- The body with its last node replaced; the fault is that of a body without nodes. -/
def editLast (whenEmpty : StatementFault) (edit : Node → Except StatementFault Node) (ns : Body) :
    Except StatementFault Body :=
  match ns.getLast? with
  | none => .error whenEmpty
  | some n => (edit n).map fun n' => ns.dropLast ++ [n']

/-- The body whose last conditional has one more branch. -/
def pushBranch (b : Branch) (ns : Body) : Except StatementFault Body :=
  editLast .elseIfWithoutIf (Node.pushBranch b) ns

/-- The body whose last conditional has an empty alternative. -/
def openAlternative (ns : Body) : Except StatementFault Body :=
  editLast .elseWithoutIf Node.openAlternative ns

/-! ### Edits at a depth -/

/-- Edits the body that lies some levels down the open path. -/
def editAt (edit : Body → Except StatementFault Body) : Nat → Body → Except StatementFault Body
  | 0, ns => edit ns
  | depth + 1, ns =>
    match openLast ns with
    | .error e => .error e
    | .ok (before, frame, inner) =>
      (editAt edit depth inner).map fun inner' => before ++ [frame.fill inner']

/-- An edit at a depth that may be negative, which is a fault of the braces. -/
def edit (f : Body → Except StatementFault Body) (depth : Int) (ns : Body) : Except Fault Body :=
  if depth < 0 then .error (.brackets (.negativeDepth depth))
  else (editAt f depth.toNat ns).mapError .statement

/-- Appends a node at a depth. -/
def addNode (ns : Body) (n : Node) (depth : Int) : Except Fault Body :=
  edit (fun scope => .ok (scope ++ [n])) depth ns

/-- Gives the last conditional at a depth one more branch. -/
def addBranch (ns : Body) (b : Branch) (depth : Int) : Except Fault Body :=
  edit (pushBranch b) depth ns

/-- Gives the last conditional at a depth an empty alternative. -/
def addAlternative (ns : Body) (depth : Int) : Except Fault Body :=
  edit openAlternative depth ns

/-! ### Text -/

/-- Appends text. It joins a text in front of it, and empty text changes nothing. -/
def appendText (ns : Body) (s : String) : Body :=
  if s = "" then ns
  else match ns.getLast? with
    | some (.text t) => ns.dropLast ++ [.text (t ++ s)]
    | _ => ns ++ [.text s]

/-! ### Laws -/

@[simp] theorem editLast_append_singleton (e : StatementFault)
    (f : Node → Except StatementFault Node) (ns : Body) (n : Node) :
    editLast e f (ns ++ [n]) = (f n).map fun n' => ns ++ [n'] := by
  simp [editLast]

@[simp] theorem editAt_zero (f : Body → Except StatementFault Body) (ns : Body) :
    editAt f 0 ns = f ns := rfl

/-- One level down is the open body of the last node. -/
theorem editAt_succ_append_fill (f : Body → Except StatementFault Body) (depth : Nat)
    (before inner : Body) (frame : Frame) :
    editAt f (depth + 1) (before ++ [frame.fill inner]) =
      (editAt f depth inner).map fun inner' => before ++ [frame.fill inner'] := by
  rw [editAt, openLast_append_singleton, Frame.openBody_fill]
  rfl

@[simp] theorem appendText_empty (ns : Body) : appendText ns "" = ns := by
  simp [appendText]

end Body

end Stencil
