import Stencil.Proofs.Body.Unused

/-!
# What rendering evaluates

While a body is rendered, its nodes ask the scope for values: an expression for the value that it
shows, a conditional for the booleans of its conditions, a loop for the list of its collection. Each
of these is a visit, of a node, in the scope in which the node is rendered. The visits of a body are
listed here in the order in which rendering makes them, as if none of them failed: those of a branch
behind the condition that selects it, those of the body of a loop once for every item. Rendering
then is what happens up to the first visit that fails. It fails with the fault of that visit, and it
succeeds when no visit fails.

So every fault has its cause in the tree: a node that is reached through selected branches and
through the items of loops, in the scope with the names of these loops bound to these items, and a
path of this node that leads nowhere or to a value of the wrong sort.

## Main definitions

* `Stencil.Query`, `Stencil.Node.queries`: what nodes ask for.
* `Stencil.Visit`, `Stencil.Node.visits`, `Stencil.Body.visits`: what rendering evaluates, in order.
* `Stencil.Reaches`: the nodes that rendering comes to, and their scopes.
* `Stencil.Node.FailsIn`: the faults of a node in a scope.

## Main results

* `Stencil.Body.findSome?_visits`: the fault of rendering is that of the first visit that fails.
* `Stencil.Body.isWithin_of_mem_visits`: visits are made at nodes that rendering comes to.
* `Stencil.Node.failsIn_of_mem_queries`: the fault of a visit.
* `Stencil.Body.render_eq_error_iff_exists_visit`: the cause of a fault.
-/

namespace Stencil

/-! ### Visits -/

/-- What a node asks the scope for. -/
inductive Query where
  /-- The value that an expression shows. -/
  | value (path : String)
  /-- The boolean of a condition. -/
  | condition (path : String)
  /-- The list of a collection. -/
  | collection (path : String)

/-- The fault of asking for something in a scope, if there is one. -/
def Query.failure? : Query → Scope → Option Fault
  | value path, σ => Stencil.failure? (σ.lookup path)
  | condition path, σ => Stencil.failure? (σ.condition path)
  | collection path, σ => Stencil.failure? (σ.collection path)

/-- What a node itself asks for; its bodies are left out. -/
def Node.queries : Node → List Query
  | text _ => []
  | expression path => [.value path]
  | conditional branches _ => branches.map fun b => .condition b.condition
  | loop _ collection _ => [.collection collection]

/-- A node asks for something in the scope in which it is rendered. -/
structure Visit where
  scope : Scope
  node : Node
  query : Query

/-- The fault of a visit, if it fails. -/
def Visit.failure? (v : Visit) : Option Fault :=
  v.query.failure? v.scope

mutual

/-- What rendering a node evaluates, in order. -/
def Node.visits : Node → Scope → List Visit
  | .text _, _ => []
  | .expression path, σ => [⟨σ, .expression path, .value path⟩]
  | .conditional branches alternative, σ =>
    Branch.visits branches (.conditional branches alternative) (Body.visitsOption alternative σ) σ
  | .loop name collection body, σ =>
    ⟨σ, .loop name collection body, .collection collection⟩ ::
      match σ.collection collection with
      | .ok items => items.flatMap fun item => Body.visits body (σ.bind name item)
      | .error _ => []

/-- The visits of the branches that are still to be tried, of a conditional and with the visits of
its alternative: the conditions up to the first true one, and then the body of its branch. -/
def Branch.visits : List Branch → Node → List Visit → Scope → List Visit
  | [], _, otherwise, _ => otherwise
  | ⟨condition, body⟩ :: branches, whole, otherwise, σ =>
    ⟨σ, whole, .condition condition⟩ ::
      match σ.condition condition with
      | .ok true => Body.visits body σ
      | .ok false => Branch.visits branches whole otherwise σ
      | .error _ => []

/-- What rendering an alternative evaluates, in order. -/
def Body.visitsOption : Option Body → Scope → List Visit
  | none, _ => []
  | some body, σ => Body.visits body σ

/-- What rendering a body evaluates, in order. -/
def Body.visits : Body → Scope → List Visit
  | [], _ => []
  | n :: ns, σ => n.visits σ ++ Body.visits ns σ

end

/-! ### The first visit that fails -/

theorem findSome?_flatMap {α β γ : Type} (f : β → Option γ) (g : α → List β) (as : List α) :
    (as.flatMap g).findSome? f = as.findSome? fun a => (g a).findSome? f := by
  induction as with
  | nil => rfl
  | cons a as ih =>
    rw [List.flatMap_cons, List.findSome?_append, ih, List.findSome?_cons]
    cases (g a).findSome? f <;> rfl

mutual

theorem Node.findSome?_visits (n : Node) (σ : Scope) :
    (n.visits σ).findSome? Visit.failure? = failure? (n.render σ) := by
  match n with
  | .text s => rfl
  | .expression path =>
    rw [Node.visits, Node.render, List.findSome?_singleton]
    exact (failure?_map (σ.lookup path) Value.text).symm
  | .conditional branches alternative =>
    exact Branch.findSome?_visits branches _ (Body.findSome?_visitsOption alternative σ)
  | .loop name collection body =>
    have hitem (item : Value) :
        (Body.visits body (σ.bind name item)).findSome? Visit.failure? =
          failure? (Body.render body (σ.bind name item)) :=
      Body.findSome?_visits body (σ.bind name item)
    have hhead : Visit.failure? ⟨σ, .loop name collection body, .collection collection⟩ =
        failure? (σ.collection collection) := rfl
    rw [Node.visits, Node.render_loop, List.findSome?_cons, hhead]
    cases σ.collection collection with
    | error fault => rfl
    | ok items =>
      calc (items.flatMap fun item => Body.visits body (σ.bind name item)).findSome? Visit.failure?
        _ = items.findSome? fun item => failure? (Body.render body (σ.bind name item)) := by
          rw [findSome?_flatMap]
          simp only [hitem]
        _ = failure? (items.mapM fun item => Body.render body (σ.bind name item)) :=
          (failure?_mapM _ items).symm
        _ = failure? ((items.mapM fun item => Body.render body (σ.bind name item)).map
              String.join) :=
          (failure?_map _ String.join).symm

theorem Branch.findSome?_visits (branches : List Branch) (whole : Node) {otherwise : List Visit}
    {alternative : Option Body} {σ : Scope}
    (h : otherwise.findSome? Visit.failure? = failure? (Body.renderOption alternative σ)) :
    (Branch.visits branches whole otherwise σ).findSome? Visit.failure? =
      failure? ((Node.conditional branches alternative).render σ) := by
  match branches with
  | [] =>
    rw [Branch.visits, Node.render_conditional_nil]
    exact h
  | ⟨condition, body⟩ :: branches =>
    have hhead : Visit.failure? ⟨σ, whole, .condition condition⟩ =
        failure? (σ.condition condition) := rfl
    rw [Branch.visits, Node.render_conditional_cons, List.findSome?_cons, hhead]
    cases σ.condition condition with
    | error fault => rfl
    | ok b =>
      cases b with
      | true => exact Body.findSome?_visits body σ
      | false => exact Branch.findSome?_visits branches whole h

theorem Body.findSome?_visitsOption (alternative : Option Body) (σ : Scope) :
    (Body.visitsOption alternative σ).findSome? Visit.failure? =
      failure? (Body.renderOption alternative σ) := by
  match alternative with
  | none => rfl
  | some body => exact Body.findSome?_visits body σ

/-- The fault of rendering is that of the first visit that fails. -/
theorem Body.findSome?_visits (ns : Body) (σ : Scope) :
    (Body.visits ns σ).findSome? Visit.failure? = failure? (Body.render ns σ) := by
  match ns with
  | [] => rfl
  | n :: ns =>
    rw [Body.visits, List.findSome?_append, Node.findSome?_visits n σ,
      Body.findSome?_visits ns σ, Body.render_cons]
    exact (failure?_bind (n.render σ) fun output => failure?_map _ _).symm

end

/-! ### Where visits are made -/

/-- Rendering a body in a scope comes to a node, and renders it in another scope: through the branch
that is selected, through an alternative behind conditions that are all false, and through loops,
whose names are bound to the items in turn. -/
inductive Reaches : Scope → Body → Scope → Node → Prop
  | here {σ ns n} (hmem : n ∈ ns) : Reaches σ ns σ n
  | branch {σ ns earlier condition body later alternative τ n}
      (hmem : .conditional (earlier ++ ⟨condition, body⟩ :: later) alternative ∈ ns)
      (hfalse : ∀ b ∈ earlier, σ.condition b.condition = .ok false)
      (htrue : σ.condition condition = .ok true) (hbody : Reaches σ body τ n) : Reaches σ ns τ n
  | alternative {σ ns branches body τ n} (hmem : .conditional branches (some body) ∈ ns)
      (hfalse : ∀ b ∈ branches, σ.condition b.condition = .ok false)
      (hbody : Reaches σ body τ n) : Reaches σ ns τ n
  | loop {σ ns name collection body items item τ n} (hmem : .loop name collection body ∈ ns)
      (hitems : σ.collection collection = .ok items) (hitem : item ∈ items)
      (hbody : Reaches (σ.bind name item) body τ n) : Reaches σ ns τ n

/-- A longer body reaches as much. -/
theorem Reaches.mono {σ τ : Scope} {ns ms : Body} {n : Node} (h : Reaches σ ns τ n)
    (hsubset : ns ⊆ ms) : Reaches σ ms τ n := by
  cases h with
  | here hmem => exact .here (hsubset hmem)
  | branch hmem hfalse htrue hbody => exact .branch (hsubset hmem) hfalse htrue hbody
  | alternative hmem hfalse hbody => exact .alternative (hsubset hmem) hfalse hbody
  | loop hmem hitems hitem hbody => exact .loop (hsubset hmem) hitems hitem hbody

/-- A visit is made at a node that rendering comes to, and for what this node asks. -/
def Visit.IsWithin (v : Visit) (σ : Scope) (ns : Body) : Prop :=
  Reaches σ ns v.scope v.node ∧ v.query ∈ v.node.queries

mutual

theorem Node.isWithin_of_mem_visits {n : Node} {σ : Scope} {v : Visit} (h : v ∈ n.visits σ)
    {ns : Body} (hn : n ∈ ns) : v.IsWithin σ ns := by
  match n with
  | .text s => cases h
  | .expression path =>
    rw [Node.visits, List.mem_singleton] at h
    rw [h]
    exact ⟨.here hn, List.mem_singleton_self _⟩
  | .conditional branches alternative =>
    refine Branch.isWithin_of_mem_visits [] h rfl hn (List.forall_mem_nil _) ?_
    intro hfalse hother
    exact Body.isWithin_of_mem_visitsOption hother hn hfalse
  | .loop name collection body =>
    rcases List.mem_cons.1 h with rfl | hbody
    · exact ⟨.here hn, List.mem_singleton_self _⟩
    · cases hitems : σ.collection collection with
      | error fault =>
        rw [hitems] at hbody
        cases hbody
      | ok items =>
        rw [hitems] at hbody
        obtain ⟨item, hitem, hv⟩ := List.mem_flatMap.1 hbody
        obtain ⟨hreaches, hquery⟩ := Body.isWithin_of_mem_visits hv
        exact ⟨.loop hn hitems hitem hreaches, hquery⟩
termination_by structural n

/-- The branches in front of those that are still to be tried have false conditions. -/
theorem Branch.isWithin_of_mem_visits {branches : List Branch} (front : List Branch)
    {whole : Node} {otherwise : List Visit} {alternative : Option Body} {σ : Scope} {v : Visit}
    {ns : Body} (h : v ∈ Branch.visits branches whole otherwise σ)
    (hwhole : whole = .conditional (front ++ branches) alternative) (hmem : whole ∈ ns)
    (hfront : ∀ b ∈ front, σ.condition b.condition = .ok false)
    (hother : (∀ b ∈ front ++ branches, σ.condition b.condition = .ok false) → v ∈ otherwise →
      v.IsWithin σ ns) : v.IsWithin σ ns := by
  match branches with
  | [] =>
    rw [List.append_nil] at hother
    exact hother hfront h
  | ⟨condition, body⟩ :: branches =>
    rcases List.mem_cons.1 h with rfl | hrest
    · have hbranch : ⟨condition, body⟩ ∈ front ++ ⟨condition, body⟩ :: branches := by simp
      refine ⟨.here hmem, ?_⟩
      rw [hwhole]
      exact List.mem_map_of_mem hbranch
    · cases htest : σ.condition condition with
      | error fault =>
        rw [htest] at hrest
        cases hrest
      | ok b =>
        rw [htest] at hrest
        cases b with
        | true =>
          obtain ⟨hreaches, hquery⟩ := Body.isWithin_of_mem_visits hrest
          exact ⟨.branch (hwhole ▸ hmem) hfront htest hreaches, hquery⟩
        | false =>
          have happend : front ++ ⟨condition, body⟩ :: branches =
              (front ++ [⟨condition, body⟩]) ++ branches := by simp
          refine Branch.isWithin_of_mem_visits _ hrest (happend ▸ hwhole) hmem ?_ (happend ▸ hother)
          exact List.forall_mem_append.2 ⟨hfront, List.forall_mem_singleton.2 htest⟩
termination_by structural branches

theorem Body.isWithin_of_mem_visitsOption {branches : List Branch} {alternative : Option Body}
    {σ : Scope} {v : Visit} {ns : Body} (h : v ∈ Body.visitsOption alternative σ)
    (hmem : .conditional branches alternative ∈ ns)
    (hfalse : ∀ b ∈ branches, σ.condition b.condition = .ok false) : v.IsWithin σ ns := by
  match alternative with
  | none => cases h
  | some body =>
    obtain ⟨hreaches, hquery⟩ := Body.isWithin_of_mem_visits h
    exact ⟨.alternative hmem hfalse hreaches, hquery⟩
termination_by structural alternative

/-- The visits of a body are made at nodes that rendering comes to, for what these nodes ask. -/
theorem Body.isWithin_of_mem_visits {ns : Body} {σ : Scope} {v : Visit} (h : v ∈ Body.visits ns σ) :
    v.IsWithin σ ns := by
  match ns with
  | [] => cases h
  | n :: ns =>
    rcases List.mem_append.1 h with hn | hns
    · exact Node.isWithin_of_mem_visits hn List.mem_cons_self
    · obtain ⟨hreaches, hquery⟩ := Body.isWithin_of_mem_visits hns
      exact ⟨hreaches.mono (List.subset_cons_self n ns), hquery⟩
termination_by structural ns

end

/-! ### Faults of a node -/

namespace Scope

variable {σ : Scope} {path : String} {fault : Fault}

/-- What asks for a value and reads it fails where the path leads nowhere, or on reading. -/
theorem bind_lookup_eq_error {α : Type} {read : Value → Except Fault α}
    (h : (σ.lookup path).bind read = .error fault) :
    (σ.lookup? path = none ∧ fault = .variableNotFound path) ∨
      ∃ v, σ.lookup? path = some v ∧ read v = .error fault := by
  cases hv : σ.lookup path with
  | error e =>
    rw [hv] at h
    cases h
    exact .inl (lookup_eq_error_iff.1 hv)
  | ok v =>
    rw [hv] at h
    exact .inr ⟨v, lookup_eq_ok_iff.1 hv, h⟩

/-- A condition leads nowhere, or to a value that is no boolean. -/
theorem condition_eq_error (h : σ.condition path = .error fault) :
    (σ.lookup? path = none ∧ fault = .variableNotFound path) ∨
      ∃ v, σ.lookup? path = some v ∧ v.kind ≠ .boolean ∧ fault = .typeMismatch path v.kind := by
  refine (bind_lookup_eq_error h).imp_right ?_
  rintro ⟨v, hv, hread⟩
  refine ⟨v, hv, ?_⟩
  cases v with
  | bool b => cases hread
  | _ =>
    cases hread
    refine ⟨?_, rfl⟩
    rintro ⟨⟩

/-- A collection leads nowhere, or to a value that is no list. -/
theorem collection_eq_error (h : σ.collection path = .error fault) :
    (σ.lookup? path = none ∧ fault = .variableNotFound path) ∨
      ∃ v, σ.lookup? path = some v ∧ v.kind ≠ .list ∧ fault = .notACollection path v.kind := by
  refine (bind_lookup_eq_error h).imp_right ?_
  rintro ⟨v, hv, hread⟩
  refine ⟨v, hv, ?_⟩
  cases v with
  | list items => cases hread
  | _ =>
    cases hread
    refine ⟨?_, rfl⟩
    rintro ⟨⟩

end Scope

/-- The faults that a node itself can have in a scope. Each names one of its paths as it stands in
the node, and the sort of the value to which the path leads, if it leads to one. -/
inductive Node.FailsIn : Node → Scope → Fault → Prop
  | value {path σ} (hnone : σ.lookup? path = none) :
      FailsIn (.expression path) σ (.variableNotFound path)
  | condition {branches alternative σ b} (hb : b ∈ branches)
      (hnone : σ.lookup? b.condition = none) :
      FailsIn (.conditional branches alternative) σ (.variableNotFound b.condition)
  | conditionKind {branches alternative σ b v} (hb : b ∈ branches)
      (hv : σ.lookup? b.condition = some v) (hkind : v.kind ≠ .boolean) :
      FailsIn (.conditional branches alternative) σ (.typeMismatch b.condition v.kind)
  | collection {name path body σ} (hnone : σ.lookup? path = none) :
      FailsIn (.loop name path body) σ (.variableNotFound path)
  | collectionKind {name path body σ v} (hv : σ.lookup? path = some v) (hkind : v.kind ≠ .list) :
      FailsIn (.loop name path body) σ (.notACollection path v.kind)

/-- A node that asks for something and does not get it has this fault. -/
theorem Node.failsIn_of_mem_queries {n : Node} {q : Query} (hq : q ∈ n.queries) {σ : Scope}
    {fault : Fault} (h : q.failure? σ = some fault) : n.FailsIn σ fault := by
  cases n with
  | text s => cases hq
  | expression path =>
    rw [queries, List.mem_singleton] at hq
    subst hq
    obtain ⟨hnone, rfl⟩ := Scope.lookup_eq_error_iff.1 (failure?_eq_some_iff.1 h)
    exact .value hnone
  | conditional branches alternative =>
    obtain ⟨b, hb, rfl⟩ := List.mem_map.1 hq
    rcases Scope.condition_eq_error (failure?_eq_some_iff.1 h) with
      ⟨hnone, rfl⟩ | ⟨v, hv, hkind, rfl⟩
    · exact .condition hb hnone
    · exact .conditionKind hb hv hkind
  | loop name collection body =>
    rw [queries, List.mem_singleton] at hq
    subst hq
    rcases Scope.collection_eq_error (failure?_eq_some_iff.1 h) with
      ⟨hnone, rfl⟩ | ⟨v, hv, hkind, rfl⟩
    · exact .collection hnone
    · exact .collectionKind hv hkind

/-- **The cause of a fault.** Rendering a body fails with a fault exactly when, of the visits that
it makes in turn, one fails with this fault and all visits before it succeed. The visit is made at a
node to which rendering comes, in the scope in which it does, and the fault is one of this node in
that scope. Rendering succeeds exactly when no visit fails. -/
theorem Body.render_eq_error_iff_exists_visit (ns : Body) (σ : Scope) :
    (∀ fault, render ns σ = .error fault ↔
      ∃ before v behind, visits ns σ = before ++ v :: behind ∧
        (∀ w ∈ before, w.failure? = none) ∧ v.failure? = some fault ∧
        Reaches σ ns v.scope v.node ∧ v.node.FailsIn v.scope fault) ∧
    ((∃ output, render ns σ = .ok output) ↔ ∀ v ∈ visits ns σ, v.failure? = none) := by
  constructor
  · intro fault
    rw [← failure?_eq_some_iff, ← findSome?_visits, List.findSome?_eq_some_iff]
    constructor
    · rintro ⟨before, v, behind, hvisits, hfault, hbefore⟩
      have hmem : v ∈ visits ns σ := by simp [hvisits]
      obtain ⟨hreaches, hquery⟩ := isWithin_of_mem_visits hmem
      exact ⟨before, v, behind, hvisits, hbefore, hfault, hreaches,
        Node.failsIn_of_mem_queries hquery hfault⟩
    · rintro ⟨before, v, behind, hvisits, hbefore, hfault, -, -⟩
      exact ⟨before, v, behind, hvisits, hfault, hbefore⟩
  · rw [← failure?_eq_none_iff, ← findSome?_visits, List.findSome?_eq_none_iff]

end Stencil
