import Stencil.Body.Render

/-!
# Free names

Rendering a body looks up the first names of its paths, and no others. The name of a loop is bound
in the body of the loop, so there it does not count; the collection of the loop is looked up
outside. What is left are the free names of a body, and its output depends on a scope through them
only.

## Main definitions

* `Stencil.Scope.headName`: the name that a path starts with.
* `Stencil.Scope.AgreeOn`: scopes in which some names stand for the same.
* `Stencil.Node.freeNames`, `Stencil.Body.freeNames`: the free names of a node and of a body.

## Main results

* `Stencil.Scope.AgreeOn.bind`: a binding makes scopes agree on its name.
* `Stencil.Body.render_congr`: scopes that agree on the free names of a body give the same output or
  the same fault.
-/

namespace Stencil

/-! ### Scopes that agree -/

namespace Scope

/-- The name that a path starts with. -/
def headName (path : String) : String :=
  (Text.split '.' path).headD ""

/-- Two scopes in which each of the given names stands for the same. -/
def AgreeOn (names : List String) (σ τ : Scope) : Prop :=
  ∀ name ∈ names, σ.resolve? name = τ.resolve? name

variable {names names' : List String} {σ τ : Scope}

theorem agreeOn_cons_iff {name : String} :
    AgreeOn (name :: names) σ τ ↔ σ.resolve? name = τ.resolve? name ∧ AgreeOn names σ τ :=
  List.forall_mem_cons

theorem agreeOn_append_iff :
    AgreeOn (names ++ names') σ τ ↔ AgreeOn names σ τ ∧ AgreeOn names' σ τ :=
  List.forall_mem_append

/-- A binding gives its name a value, and the other names keep theirs. -/
theorem resolve?_bind (σ : Scope) (name other : String) (value : Value) :
    (σ.bind name value).resolve? other = if name = other then some value else σ.resolve? other := by
  split
  · rename_i h
    rw [h, resolve?_bind_self]
  · rename_i h
    rw [resolve?_bind_of_ne h]

/-- A binding makes scopes agree on its name. -/
theorem AgreeOn.bind {name : String} (h : AgreeOn (names.filter (· ≠ name)) σ τ) (value : Value) :
    AgreeOn names (σ.bind name value) (τ.bind name value) := by
  intro other hother
  rw [resolve?_bind, resolve?_bind]
  split
  · rfl
  · rename_i hne
    exact h other (List.mem_filter.2 ⟨hother, by simpa using Ne.symm hne⟩)

/-! ### Lookups -/

/-- A path is looked up through the name it starts with. -/
theorem lookup?_eq_bind (σ : Scope) (path : String) :
    σ.lookup? path =
      (σ.resolve? (headName path)).bind fun v => v.follow? (Text.split '.' path).tail := by
  rw [lookup?, headName]
  cases h : Text.split '.' path with
  | nil =>
    rw [Text.split, List.map_eq_nil_iff] at h
    exact absurd h (Text.pieces_ne_nil _)
  | cons head keys => rfl

/-- A name without dots is looked up as a whole. -/
theorem lookup?_of_notMem_dot {name : String} (h : '.' ∉ name.toList) :
    σ.lookup? name = σ.resolve? name := by
  rw [lookup?, Text.split_of_notMem h]
  simp only [Value.follow?, Option.bind_fun_some]

theorem lookup_congr {path : String}
    (h : σ.resolve? (headName path) = τ.resolve? (headName path)) :
    σ.lookup path = τ.lookup path := by
  rw [lookup, lookup, lookup?_eq_bind, lookup?_eq_bind, h]

theorem condition_congr {path : String}
    (h : σ.resolve? (headName path) = τ.resolve? (headName path)) :
    σ.condition path = τ.condition path := by
  rw [condition, condition, lookup_congr h]

theorem collection_congr {path : String}
    (h : σ.resolve? (headName path) = τ.resolve? (headName path)) :
    σ.collection path = τ.collection path := by
  rw [collection, collection, lookup_congr h]

end Scope

/-! ### Free names -/

mutual

/-- The names that rendering a node looks up in the scope around the node. -/
def Node.freeNames : Node → List String
  | .text _ => []
  | .expression path => [Scope.headName path]
  | .conditional branches alternative =>
    Branch.freeNames branches ++ Body.freeNamesOption alternative
  | .loop name collection body =>
    Scope.headName collection :: (Body.freeNames body).filter (· ≠ name)

/-- The free names of branches, those of their conditions included. -/
def Branch.freeNames : List Branch → List String
  | [] => []
  | ⟨condition, body⟩ :: branches =>
    Scope.headName condition :: (Body.freeNames body ++ Branch.freeNames branches)

/-- The free names of an alternative. -/
def Body.freeNamesOption : Option Body → List String
  | none => []
  | some body => Body.freeNames body

/-- The free names of a body. -/
def Body.freeNames : Body → List String
  | [] => []
  | n :: ns => n.freeNames ++ Body.freeNames ns

end

/-! ### Rendering looks up free names only -/

mutual

theorem Node.render_congr {n : Node} {σ τ : Scope} (h : Scope.AgreeOn n.freeNames σ τ) :
    n.render σ = n.render τ := by
  match n with
  | .text s => rfl
  | .expression path =>
    have hlookup := Scope.lookup_congr (h (Scope.headName path) (List.mem_singleton.2 rfl))
    rw [Node.render, Node.render, hlookup]
  | .conditional branches alternative =>
    obtain ⟨hbranches, halternative⟩ := Scope.agreeOn_append_iff.1 h
    rw [Node.render, Node.render, Branch.renderFirst_congr hbranches,
      Body.renderOption_congr halternative]
  | .loop name collection body =>
    obtain ⟨hcollection, hbody⟩ := Scope.agreeOn_cons_iff.1 h
    -- Every iteration binds the name of the loop, so the scopes agree on it as well.
    have hitem : ∀ item,
        Body.render body (σ.bind name item) = Body.render body (τ.bind name item) :=
      fun item => Body.render_congr (hbody.bind item)
    simp only [Node.render_loop, Scope.collection_congr hcollection, hitem]

theorem Branch.renderFirst_congr {branches : List Branch} {σ τ : Scope}
    (h : Scope.AgreeOn (Branch.freeNames branches) σ τ) :
    Branch.renderFirst branches σ = Branch.renderFirst branches τ := by
  match branches with
  | [] => rfl
  | ⟨condition, body⟩ :: branches =>
    obtain ⟨hcondition, hrest⟩ := Scope.agreeOn_cons_iff.1 h
    obtain ⟨hbody, hbranches⟩ := Scope.agreeOn_append_iff.1 hrest
    rw [Branch.renderFirst, Branch.renderFirst, Scope.condition_congr hcondition,
      Body.render_congr hbody, Branch.renderFirst_congr hbranches]

theorem Body.renderOption_congr {alternative : Option Body} {σ τ : Scope}
    (h : Scope.AgreeOn (Body.freeNamesOption alternative) σ τ) :
    Body.renderOption alternative σ = Body.renderOption alternative τ := by
  match alternative with
  | none => rfl
  | some body =>
    have hbody : Scope.AgreeOn (Body.freeNames body) σ τ := h
    exact Body.render_congr hbody

/-- Scopes that agree on the free names of a body give the same output or the same fault. -/
theorem Body.render_congr {ns : Body} {σ τ : Scope} (h : Scope.AgreeOn (Body.freeNames ns) σ τ) :
    Body.render ns σ = Body.render ns τ := by
  match ns with
  | [] => rfl
  | n :: ns =>
    obtain ⟨hn, hns⟩ := Scope.agreeOn_append_iff.1 h
    rw [Body.render_cons, Body.render_cons, Node.render_congr hn, Body.render_congr hns]

end

end Stencil
