import Stencil.Node
import Stencil.Scope

/-!
# Rendering

Rendering a body in a scope gives its output: texts as they stand, expressions by the text of their
values, a conditional by its first true branch, and a loop by its body once per item. Only what is
used is looked up, and the first fault ends the rendering.

## Main definitions

* `Stencil.Node.render`, `Stencil.Body.render`: the output of a node and of a body.
* `Stencil.Branch.renderFirst`: the output of the first true branch.

## Main results

* `Stencil.Body.render_append`: two bodies one after the other give their outputs one after the
  other.
-/

namespace Stencil

mutual

/-- The output of a node. -/
def Node.render : Node → Scope → Except Fault String
  | .text s, _ => .ok s
  | .expression path, σ => do
    let v ← σ.lookup path
    return v.text
  | .conditional branches alternative, σ => do
    match ← Branch.renderFirst branches σ with
    | some output => return output
    | none => Body.renderOption alternative σ
  | .loop name collection body, σ => do
    let items ← σ.collection collection
    let outputs ← items.mapM fun item => Body.render body (σ.bind name item)
    return String.join outputs

/-- The output of the first branch whose condition is true, if there is one. Later conditions are
not looked at. -/
def Branch.renderFirst : List Branch → Scope → Except Fault (Option String)
  | [], _ => .ok none
  | ⟨condition, body⟩ :: branches, σ => do
    if ← σ.condition condition then
      let output ← Body.render body σ
      return some output
    else Branch.renderFirst branches σ

/-- The output of an alternative; none is empty. -/
def Body.renderOption : Option Body → Scope → Except Fault String
  | none, _ => .ok ""
  | some body, σ => Body.render body σ

/-- The output of a body. -/
def Body.render : Body → Scope → Except Fault String
  | [], _ => .ok ""
  | n :: ns, σ => do
    let output ← n.render σ
    let outputs ← Body.render ns σ
    return output ++ outputs

end

/-- The outputs of the body of a loop, one for every item of the collection. -/
theorem Node.render_loop (name collection : String) (body : Body) (σ : Scope) :
    (Node.loop name collection body).render σ =
      (σ.collection collection).bind fun items =>
        (items.mapM fun item => Body.render body (σ.bind name item)).map String.join := by
  simp only [Node.render, bind_pure_comp]
  rfl

theorem Body.render_nil (σ : Scope) : Body.render [] σ = .ok "" := rfl

theorem Body.render_cons (n : Node) (ns : Body) (σ : Scope) :
    Body.render (n :: ns) σ =
      (n.render σ).bind fun output => (Body.render ns σ).map fun outputs => output ++ outputs := by
  rw [Body.render]
  cases n.render σ with
  | error e => rfl
  | ok output => cases Body.render ns σ <;> rfl

/-- A body with one node has the output of the node. -/
theorem Body.render_singleton (n : Node) (σ : Scope) : Body.render [n] σ = n.render σ := by
  rw [Body.render_cons, Body.render_nil]
  cases n.render σ with
  | error e => rfl
  | ok output => exact congrArg Except.ok String.append_empty

/-- The output of two bodies one after the other, or the fault of the first one that has one. -/
theorem Body.render_append (ns ms : Body) (σ : Scope) :
    Body.render (ns ++ ms) σ =
      (Body.render ns σ).bind fun output => (Body.render ms σ).map fun rest => output ++ rest := by
  induction ns with
  | nil => cases h : Body.render ms σ <;> simp [Body.render_nil, h, Except.bind, Except.map]
  | cons n ns ih =>
    rw [List.cons_append, Body.render_cons, Body.render_cons, ih]
    cases n.render σ with
    | error e => rfl
    | ok output =>
      cases Body.render ns σ with
      | error e => rfl
      | ok outputs =>
        cases Body.render ms σ with
        | error e => rfl
        | ok rest => simp [Except.bind, Except.map, String.append_assoc]

end Stencil
