import Stencil.Fault
import Stencil.Node

/-!
# Open bodies

A block has one body that new content goes to: the body of a loop, and of a conditional the
alternative or, while there is none, the last branch. A frame is a block without that body; filling
it with a body gives a block again.

## Main definitions

* `Stencil.Frame`, `Stencil.Frame.fill`: a block around its open body.
* `Stencil.Node.openBody`: the frame and the open body of a node.
* `Stencil.Body.openLast`: the open body of the last node of a body.

## Main results

* `Stencil.Node.fill_of_openBody`, `Stencil.Frame.openBody_fill`: opening and filling are inverse.
-/

namespace Stencil

/-- A block without the body that new content goes to. -/
inductive Frame where
  /-- The last branch of a conditional without alternative, after the earlier ones. -/
  | branch (earlier : List Branch) (condition : String)
  /-- The alternative of a conditional. -/
  | alternative (branches : List Branch)
  /-- A loop. -/
  | loop (name collection : String)

/-- The block with the given open body. -/
def Frame.fill : Frame → Body → Node
  | branch earlier condition, body => .conditional (earlier ++ [⟨condition, body⟩]) none
  | alternative branches, body => .conditional branches (some body)
  | loop name collection, body => .loop name collection body

/-- The frame and the open body of a block. Text and expressions have none, and neither has a
conditional without branches and alternative. -/
def Node.openBody : Node → Except StatementFault (Frame × Body)
  | text _ => .error .cannotNest
  | expression _ => .error .cannotNest
  | conditional branches (some body) => .ok (.alternative branches, body)
  | conditional branches none =>
    match branches.getLast? with
    | none => .error .noBranch
    | some last => .ok (.branch branches.dropLast last.condition, last.body)
  | loop name collection body => .ok (.loop name collection, body)

/-- The nodes before the last one, and the frame and open body of the last one. -/
def Body.openLast (ns : Body) : Except StatementFault (Body × Frame × Body) :=
  match ns.getLast? with
  | none => .error .noOpenBlock
  | some n => (Node.openBody n).map fun p => (ns.dropLast, p)

/-! ### Opening and filling -/

@[simp] theorem Frame.openBody_fill (f : Frame) (b : Body) : (f.fill b).openBody = .ok (f, b) := by
  cases f <;> simp [Frame.fill, Node.openBody]

theorem Node.fill_of_openBody {n : Node} {f : Frame} {b : Body} (h : n.openBody = .ok (f, b)) :
    f.fill b = n := by
  cases n with
  | text s => cases h
  | expression p => cases h
  | loop x c body => cases h; rfl
  | conditional branches alternative =>
    cases alternative with
    | some body => cases h; rfl
    | none =>
      rw [openBody] at h
      cases hl : branches.getLast? with
      | none => rw [hl] at h; cases h
      | some last =>
        rw [hl] at h
        cases h
        obtain ⟨earlier, rfl⟩ := List.getLast?_eq_some_iff.1 hl
        cases last
        simp [Frame.fill]

theorem Body.openLast_append_singleton (ns : Body) (n : Node) :
    openLast (ns ++ [n]) = n.openBody.map fun p => (ns, p) := by
  simp [openLast]

theorem Body.append_fill_of_openLast {ns before inner : Body} {f : Frame}
    (h : openLast ns = .ok (before, f, inner)) : before ++ [f.fill inner] = ns := by
  rcases List.eq_nil_or_concat ns with rfl | ⟨r, n, rfl⟩
  · cases h
  · rw [List.concat_eq_append] at h ⊢
    rw [openLast_append_singleton] at h
    cases hn : n.openBody with
    | error e => rw [hn] at h; cases h
    | ok p =>
      rw [hn] at h
      cases h
      rw [Node.fill_of_openBody hn]

end Stencil
