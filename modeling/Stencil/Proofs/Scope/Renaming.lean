import Stencil.Proofs.Fallible
import Stencil.Proofs.FreeName
import Stencil.Proofs.Text.Split

/-!
# Renaming the name of a loop

The name of a loop is bound in its body, so another name does as well, if the paths in the body that
start with the old name start with the new one instead. Inside of a loop that binds the old name
once more these paths mean the inner binding and stay as they are; the collection of such a loop is
looked up outside of it and is renamed. The new name must not be in use in the body: a path that
starts with it means something around the loop, and a loop with that name would catch the renamed
paths.

The two loops render in scopes that differ in two names only: what the old name stands for in one of
them, the new name stands for in the other. Every lookup gives the same value in both, so the
outputs are the same. A fault is the same too, but for its path, which is one of the body that has
the fault.

## Main definitions

* `Stencil.Scope.withHeadName`, `Stencil.Scope.renameHead`: a path with another first name.
* `Stencil.Node.mentions`, `Stencil.Body.mentions`: all names that are in use.
* `Stencil.Node.rename`, `Stencil.Body.rename`: one name in the place of another.
* `Stencil.Scope.Renames`: scopes that differ in the two names.
* `Stencil.Fault.IsRenamed`: faults that differ in their paths.

## Main results

* `Stencil.Scope.Renames.lookup?_renameHead`: the same value under both paths.
* `Stencil.Body.failsAlike_rename`: the outputs of a body and of the renamed body.
* `Stencil.Node.render_loop_rename`: the outputs of a loop and of the renamed loop.
-/

namespace Stencil

/-! ### Paths with another first name -/

namespace Scope

variable {x y name path : String} {σ τ : Scope}

/-- The path with another first name. -/
def withHeadName (name path : String) : String :=
  name ++ String.ofList (path.toList.dropWhile (· ≠ '.'))

/-- The path with `y` for its first name, if that is `x`. -/
def renameHead (x y path : String) : String :=
  if headName path = x then withHeadName y path else path

theorem split_withHeadName (h : '.' ∉ name.toList) (path : String) :
    Text.split '.' (withHeadName name path) = name :: (Text.split '.' path).tail :=
  Text.split_append_dropWhile h path

/-- The keys of the path are followed from the value of the other name. -/
theorem lookup?_withHeadName (h : '.' ∉ name.toList) (σ : Scope) (path : String) :
    σ.lookup? (withHeadName name path) =
      (σ.resolve? name).bind fun v => v.follow? (Text.split '.' path).tail := by
  rw [lookup?, split_withHeadName h]

/-! ### Scopes that differ in two names -/

/-- The name `y` stands in the second scope for what `x` stands for in the first one. What `y`
stands for in the first scope and `x` in the second one is left open. -/
structure Renames (x y : String) (σ τ : Scope) : Prop where
  /-- A path can start with the new name. -/
  notMem_dot : '.' ∉ y.toList
  /-- What one name stands for, the other one stands for. -/
  resolve?_renamed : τ.resolve? y = σ.resolve? x
  /-- All names but these two stand for the same. -/
  resolve?_other : ∀ name, name ≠ x → name ≠ y → τ.resolve? name = σ.resolve? name

/-- The scopes of a loop and of the renamed loop, for one item. -/
theorem renames_bind (x : String) (h : '.' ∉ y.toList) (σ : Scope) (value : Value) :
    Renames x y (σ.bind x value) (σ.bind y value) where
  notMem_dot := h
  resolve?_renamed := by rw [resolve?_bind_self, resolve?_bind_self]
  resolve?_other name hx hy := by
    rw [resolve?_bind_of_ne (Ne.symm hx), resolve?_bind_of_ne (Ne.symm hy)]

namespace Renames

variable (h : Renames x y σ τ)

include h

/-- A loop with a third name. -/
theorem bind (hx : name ≠ x) (hy : name ≠ y) (value : Value) :
    Renames x y (σ.bind name value) (τ.bind name value) where
  notMem_dot := h.notMem_dot
  resolve?_renamed := by
    rw [resolve?_bind_of_ne hx, resolve?_bind_of_ne hy, h.resolve?_renamed]
  resolve?_other other hox hoy := by
    rw [resolve?_bind, resolve?_bind, h.resolve?_other other hox hoy]

/-- A loop with the old name: only the new name still makes a difference. -/
theorem agreeOn_bind {names : List String} (hy : y ∉ names) (value : Value) :
    AgreeOn names (σ.bind x value) (τ.bind x value) := by
  intro name hname
  rw [resolve?_bind, resolve?_bind]
  split
  · rfl
  · rename_i hx
    exact (h.resolve?_other name (Ne.symm hx) (fun heq => hy (heq ▸ hname))).symm

/-- The renamed path has the value in the second scope that the path has in the first one. -/
theorem lookup?_renameHead (hpath : headName path ≠ y) :
    τ.lookup? (renameHead x y path) = σ.lookup? path := by
  rw [renameHead, lookup?_eq_bind σ]
  split
  · rename_i hx
    rw [lookup?_withHeadName h.notMem_dot, h.resolve?_renamed, hx]
  · rename_i hx
    rw [lookup?_eq_bind, h.resolve?_other _ hx hpath]

end Renames

end Scope

/-! ### Faults that differ in their paths -/

namespace Fault

/-- The fault with another path. Faults that come from no path stay as they are. -/
def mapPath (f : String → String) : Fault → Fault
  | variableNotFound path => variableNotFound (f path)
  | typeMismatch path found => typeMismatch (f path) found
  | notACollection path found => notACollection (f path) found
  | fault => fault

/-- The second fault is the first one, or the first one with the name renamed in its path. -/
def IsRenamed (x y : String) (fault fault' : Fault) : Prop :=
  fault' = fault ∨ fault' = fault.mapPath (Scope.renameHead x y)

end Fault

namespace Scope

variable {x y path : String} {σ τ : Scope}

/-! ### Lookups under both names -/

section Lookup

variable (h : τ.lookup? (renameHead x y path) = σ.lookup? path)

include h

theorem failsAlike_lookup :
    FailsAlike (Fault.IsRenamed x y) (σ.lookup path) (τ.lookup (renameHead x y path)) := by
  rw [lookup, lookup, h]
  cases σ.lookup? path with
  | none => exact .error (.inr rfl)
  | some v => exact .ok v

theorem failsAlike_condition :
    FailsAlike (Fault.IsRenamed x y) (σ.condition path) (τ.condition (renameHead x y path)) := by
  refine (failsAlike_lookup h).bind fun v => ?_
  cases v with
  | bool b => exact .ok b
  | _ => exact .error (.inr rfl)

theorem failsAlike_collection :
    FailsAlike (Fault.IsRenamed x y) (σ.collection path) (τ.collection (renameHead x y path)) := by
  refine (failsAlike_lookup h).bind fun v => ?_
  cases v with
  | list items => exact .ok items
  | _ => exact .error (.inr rfl)

end Lookup

end Scope

/-! ### Names in use -/

mutual

/-- The names that paths in a node start with, and the names of its loops. -/
def Node.mentions : Node → List String
  | .text _ => []
  | .expression path => [Scope.headName path]
  | .conditional branches alternative =>
    Branch.mentions branches ++ Body.mentionsOption alternative
  | .loop name collection body => name :: Scope.headName collection :: Body.mentions body

/-- The names in use in branches, those of their conditions included. -/
def Branch.mentions : List Branch → List String
  | [] => []
  | ⟨condition, body⟩ :: branches =>
    Scope.headName condition :: (Body.mentions body ++ Branch.mentions branches)

/-- The names in use in an alternative. -/
def Body.mentionsOption : Option Body → List String
  | none => []
  | some body => Body.mentions body

/-- The names in use in a body. -/
def Body.mentions : Body → List String
  | [] => []
  | n :: ns => n.mentions ++ Body.mentions ns

end

mutual

theorem Node.mem_mentions_of_mem_freeNames {n : Node} {name : String} (h : name ∈ n.freeNames) :
    name ∈ n.mentions := by
  match n with
  | .text s => exact h
  | .expression path => exact h
  | .conditional branches alternative =>
    exact List.mem_append.2 ((List.mem_append.1 h).imp Branch.mem_mentions_of_mem_freeNames
      Body.mem_mentionsOption_of_mem_freeNamesOption)
  | .loop _ collection body =>
    refine List.mem_cons_of_mem _ (List.mem_cons.2 ((List.mem_cons.1 h).imp_right fun hbody => ?_))
    exact Body.mem_mentions_of_mem_freeNames (List.mem_filter.1 hbody).1

theorem Branch.mem_mentions_of_mem_freeNames {branches : List Branch} {name : String}
    (h : name ∈ Branch.freeNames branches) : name ∈ Branch.mentions branches := by
  match branches with
  | [] => exact h
  | ⟨condition, body⟩ :: branches =>
    refine List.mem_cons.2 ((List.mem_cons.1 h).imp_right fun hrest => ?_)
    exact List.mem_append.2 ((List.mem_append.1 hrest).imp Body.mem_mentions_of_mem_freeNames
      Branch.mem_mentions_of_mem_freeNames)

theorem Body.mem_mentionsOption_of_mem_freeNamesOption {alternative : Option Body} {name : String}
    (h : name ∈ Body.freeNamesOption alternative) : name ∈ Body.mentionsOption alternative := by
  match alternative with
  | none => exact h
  | some body =>
    have hbody : name ∈ Body.freeNames body := h
    exact Body.mem_mentions_of_mem_freeNames hbody

/-- The free names of a body are in use in it. -/
theorem Body.mem_mentions_of_mem_freeNames {ns : Body} {name : String}
    (h : name ∈ Body.freeNames ns) : name ∈ Body.mentions ns := by
  match ns with
  | [] => exact h
  | n :: ns =>
    exact List.mem_append.2 ((List.mem_append.1 h).imp Node.mem_mentions_of_mem_freeNames
      Body.mem_mentions_of_mem_freeNames)

end

/-! ### One name in the place of another -/

mutual

/-- The node with the name `y` in the place of the name `x`, where that is not the name of a loop
inside. -/
def Node.rename (x y : String) : Node → Node
  | .text s => .text s
  | .expression path => .expression (Scope.renameHead x y path)
  | .conditional branches alternative =>
    .conditional (Branch.rename x y branches) (Body.renameOption x y alternative)
  | .loop name collection body =>
    .loop name (Scope.renameHead x y collection)
      (if name = x then body else Body.rename x y body)

/-- The branches with another name, also in their conditions. -/
def Branch.rename (x y : String) : List Branch → List Branch
  | [] => []
  | ⟨condition, body⟩ :: branches =>
    ⟨Scope.renameHead x y condition, Body.rename x y body⟩ :: Branch.rename x y branches

/-- The alternative with another name. -/
def Body.renameOption (x y : String) : Option Body → Option Body
  | none => none
  | some body => some (Body.rename x y body)

/-- The body with another name. -/
def Body.rename (x y : String) : Body → Body
  | [] => []
  | n :: ns => n.rename x y :: Body.rename x y ns

end

/-! ### Rendering under both names -/

mutual

theorem Node.failsAlike_rename {x y : String} {n : Node} {σ τ : Scope} (h : Scope.Renames x y σ τ)
    (hnew : y ∉ n.mentions) :
    FailsAlike (Fault.IsRenamed x y) (n.render σ) ((n.rename x y).render τ) := by
  match n with
  | .text s => exact .ok s
  | .expression path =>
    rw [Node.mentions, List.mem_singleton] at hnew
    rw [Node.rename, Node.render, Node.render]
    have hvalue := Scope.failsAlike_lookup (h.lookup?_renameHead (Ne.symm hnew))
    exact hvalue.bind fun v => .ok v.text
  | .conditional branches alternative =>
    rw [Node.mentions, List.mem_append, not_or] at hnew
    obtain ⟨hbranches, halternative⟩ := hnew
    rw [Node.rename, Node.render, Node.render]
    refine (Branch.failsAlike_rename h hbranches).bind fun output => ?_
    cases output with
    | some output => exact .ok output
    | none => exact Body.failsAlike_renameOption h halternative
  | .loop name collection body =>
    rw [Node.mentions, List.mem_cons, List.mem_cons, not_or, not_or] at hnew
    obtain ⟨hname, hcollection, hbody⟩ := hnew
    rw [Node.rename, Node.render, Node.render]
    have hitems := Scope.failsAlike_collection (h.lookup?_renameHead (Ne.symm hcollection))
    refine hitems.bind fun items => FailsAlike.bind (.mapM (fun item => ?_) items) fun _ => .ok _
    split
    · -- Inside, the old name means the item on both sides, and the new name is not looked up.
      rename_i hx
      have hfree : y ∉ Body.freeNames body := fun hmem =>
        hbody (Body.mem_mentions_of_mem_freeNames hmem)
      rw [hx, Body.render_congr (h.agreeOn_bind hfree item)]
      exact .refl (fun _ => .inl rfl) _
    · rename_i hx
      exact Body.failsAlike_rename (h.bind hx (Ne.symm hname) item) hbody

theorem Branch.failsAlike_rename {x y : String} {branches : List Branch} {σ τ : Scope}
    (h : Scope.Renames x y σ τ) (hnew : y ∉ Branch.mentions branches) :
    FailsAlike (Fault.IsRenamed x y) (Branch.renderFirst branches σ)
      (Branch.renderFirst (Branch.rename x y branches) τ) := by
  match branches with
  | [] => exact .ok none
  | ⟨condition, body⟩ :: branches =>
    rw [Branch.mentions, List.mem_cons, List.mem_append, not_or, not_or] at hnew
    obtain ⟨hcondition, hbody, hbranches⟩ := hnew
    rw [Branch.rename, Branch.renderFirst, Branch.renderFirst]
    have htest := Scope.failsAlike_condition (h.lookup?_renameHead (Ne.symm hcondition))
    refine htest.bind fun b => ?_
    cases b with
    | true => exact (Body.failsAlike_rename h hbody).bind fun output => .ok (some output)
    | false => exact Branch.failsAlike_rename h hbranches

theorem Body.failsAlike_renameOption {x y : String} {alternative : Option Body}
    {σ τ : Scope} (h : Scope.Renames x y σ τ) (hnew : y ∉ Body.mentionsOption alternative) :
    FailsAlike (Fault.IsRenamed x y) (Body.renderOption alternative σ)
      (Body.renderOption (Body.renameOption x y alternative) τ) := by
  match alternative with
  | none => exact .ok ""
  | some body => exact Body.failsAlike_rename h hnew

/-- A body and the renamed body have the same output, or faults that differ in their paths, in
scopes that differ in the two names. -/
theorem Body.failsAlike_rename {x y : String} {ns : Body} {σ τ : Scope}
    (h : Scope.Renames x y σ τ) (hnew : y ∉ Body.mentions ns) :
    FailsAlike (Fault.IsRenamed x y) (Body.render ns σ) (Body.render (Body.rename x y ns) τ) := by
  match ns with
  | [] => exact .ok ""
  | n :: ns =>
    rw [Body.mentions, List.mem_append, not_or] at hnew
    obtain ⟨hn, hns⟩ := hnew
    rw [Body.rename, Body.render, Body.render]
    exact (Node.failsAlike_rename h hn).bind fun output =>
      (Body.failsAlike_rename h hns).bind fun outputs => .ok (output ++ outputs)

end

/-- **The name of a loop is bound.** A loop and the same loop with another name, put in the place of
the old one wherever the body means it, have the same output, or both have a fault of the same sort
that found the same. The path of the second fault is that of the first one, or that path with the
new name for its first name. The new name has no dot, no path in the body starts with it, and no
loop in the body has it. -/
theorem Node.render_loop_rename {x y : String} {body : Body} (hdot : '.' ∉ y.toList)
    (hnew : y ∉ Body.mentions body) (collection : String) (σ : Scope) :
    let first := (loop x collection body).render σ
    let second := (loop y collection (Body.rename x y body)).render σ
    (∃ output, first = .ok output ∧ second = .ok output) ∨
      ∃ fault fault', first = .error fault ∧ second = .error fault' ∧
        (fault' = fault ∨ fault' = fault.mapPath (Scope.renameHead x y)) := by
  intro first second
  have hitem (item : Value) : FailsAlike (Fault.IsRenamed x y) (Body.render body (σ.bind x item))
      (Body.render (Body.rename x y body) (σ.bind y item)) :=
    Body.failsAlike_rename (Scope.renames_bind x hdot σ item) hnew
  have halike : FailsAlike (Fault.IsRenamed x y) first second := by
    have hcollection : FailsAlike (Fault.IsRenamed x y) (σ.collection collection)
        (σ.collection collection) := .refl (fun _ => .inl rfl) _
    exact hcollection.bind fun items => (FailsAlike.mapM hitem items).bind fun _ => .ok _
  exact halike.eq_ok_or_eq_error

/-- A body with a loop that binds the old name once more, over a collection that is reached through
it. Around the loop both names stand for something else. The second collection has an item without
the entry that the body shows. -/
theorem Node.render_loop_rename_of_rows :
    let body : Body := [.loop "row" "row.tags" [.expression "row"],
      .conditional [⟨"row.shown", [.expression "row.name", .expression "title"]⟩] none]
    let renamed : Body := [.loop "row" "it.tags" [.expression "row"],
      .conditional [⟨"it.shown", [.expression "it.name", .expression "title"]⟩] none]
    let tags : Value := .list [.str "a", .str "b"]
    let σ := Scope.ofRoot (.map [("drafts", .list [.map [("shown", .bool true), ("tags", tags)]]),
      ("it", .null), ("row", .null),
      ("rows", .list [.map [("name", .str "N"), ("shown", .bool true), ("tags", tags)]]),
      ("title", .str "T")])
    '.' ∉ "it".toList ∧ "it" ∉ Body.mentions body ∧ Body.rename "row" "it" body = renamed ∧
      (loop "row" "rows" body).render σ = .ok "abNT" ∧
      (loop "it" "rows" renamed).render σ = .ok "abNT" ∧
      (loop "row" "drafts" body).render σ = .error (.variableNotFound "row.name") ∧
      ((loop "it" "drafts" renamed).render σ = .error (.variableNotFound "row.name") ∨
        (loop "it" "drafts" renamed).render σ = .error (.variableNotFound "it.name")) := by
  intro body renamed tags σ
  have hdot : '.' ∉ "it".toList := by decide
  have hnew : "it" ∉ Body.mentions body := by decide +kernel
  have hrenamed : Body.rename "row" "it" body = renamed := rfl
  have hrow : (loop "row" "rows" body).render σ = .ok "abNT" := rfl
  have hdraft : (loop "row" "drafts" body).render σ = .error (.variableNotFound "row.name") := rfl
  refine ⟨hdot, hnew, hrenamed, hrow, ?_, hdraft, ?_⟩
  · obtain ⟨output, hfirst, hsecond⟩ | ⟨fault, -, hfirst, -⟩ :=
      render_loop_rename (x := "row") hdot hnew "rows" σ
    · rw [hrow] at hfirst
      rw [← hrenamed, hsecond, hfirst]
    · rw [hrow] at hfirst
      cases hfirst
  · obtain ⟨output, hfirst, -⟩ | ⟨fault, fault', hfirst, hsecond, hpath⟩ :=
      render_loop_rename (x := "row") hdot hnew "drafts" σ
    · rw [hdraft] at hfirst
      cases hfirst
    · rw [hdraft] at hfirst
      cases hfirst
      rw [← hrenamed, hsecond]
      exact hpath.imp (congrArg _) (congrArg _)

end Stencil
