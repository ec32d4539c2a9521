import Stencil.Proofs.Dictionary
import Stencil.Proofs.FreeName

/-!
# Entries and bindings that do not matter

The output of a body depends on its scope through the free names of the body, and through what they
stand for only. Two scopes in which every free name stands for the same, or for nothing in both, may
have different roots and chains of bindings of different lengths; the body has the same output or
the same fault in both.

In particular an entry of the root can be added, changed or taken out when its name is not free or
is bound, and a binding can be added, changed or taken out when its name is not free or is bound
further in.

## Main results

* `Stencil.Scope.agreeOn_of_root`, `Stencil.Scope.agreeOn_of_binding`: scopes that differ in the
  root, and in one binding.
* `Stencil.Body.render_depends_on_freeNames`: only free names count.
-/

namespace Stencil

namespace Scope

variable {names : List String} {root : Value} {bs front back : Dictionary Value} {name : String}

theorem resolve?_mk (root : Value) (bs : Dictionary Value) (name : String) :
    resolve? ⟨root, bs⟩ name = (Dictionary.find? name bs).or (Dictionary.find? name root.entries) :=
  rfl

/-- The root counts for the names that are not bound. -/
theorem agreeOn_of_root {root' : Value}
    (h : ∀ other ∈ names, other ∉ Dictionary.keys bs →
      Dictionary.find? other root.entries = Dictionary.find? other root'.entries) :
    AgreeOn names ⟨root, bs⟩ ⟨root', bs⟩ := by
  intro other hother
  rw [resolve?_mk, resolve?_mk]
  cases hbound : Dictionary.find? other bs with
  | some value => rfl
  | none => rw [h other hother (Dictionary.find?_eq_none_iff.1 hbound)]

/-- A binding counts for its name only, and not when the name is bound further in. -/
theorem agreeOn_of_binding (h : name ∉ names ∨ name ∈ Dictionary.keys front) (root : Value)
    (value : Value) :
    AgreeOn names ⟨root, front ++ (name, value) :: back⟩ ⟨root, front ++ back⟩ := by
  intro other hother
  rw [resolve?_mk, resolve?_mk, Dictionary.find?_append, Dictionary.find?_append,
    Dictionary.find?_cons]
  split
  · rename_i heq
    subst heq
    have hfront := Dictionary.find?_isSome_iff.2 (h.resolve_left fun hnot => hnot hother)
    obtain ⟨inner, hinner⟩ := Option.isSome_iff_exists.1 hfront
    rw [hinner]
    rfl
  · rfl

end Scope

namespace Body

variable {ns : Body} {name : String} {es bs : Dictionary Value}

/-- Dictionaries that have the same entries apart from those of one name, as roots of a body in
which the name is not free or is bound. -/
theorem render_congr_root {es' : Dictionary Value}
    (h : name ∉ freeNames ns ∨ name ∈ Dictionary.keys bs)
    (hothers : ∀ other, name ≠ other → Dictionary.find? other es = Dictionary.find? other es') :
    Body.render ns ⟨.map es, bs⟩ = Body.render ns ⟨.map es', bs⟩ := by
  refine render_congr (Scope.agreeOn_of_root fun other hother hbound => hothers other ?_)
  rintro rfl
  exact h.elim (fun hfree => hfree hother) hbound

/-- **Only free names count.** A body has the same output or the same fault in any two scopes in
which each of its free names stands for the same. So an entry of the root whose name is not free, or
is bound, can be put in, given another value or taken out, and so can a binding whose name is not
free, or is bound further in. -/
theorem render_depends_on_freeNames (ns : Body) :
    (∀ σ τ : Scope, (∀ name ∈ freeNames ns, σ.resolve? name = τ.resolve? name) →
      Body.render ns σ = Body.render ns τ) ∧
    (∀ name value es bs, name ∉ freeNames ns ∨ name ∈ Dictionary.keys bs →
      Body.render ns ⟨.map (Dictionary.insert name value es), bs⟩ =
          Body.render ns ⟨.map es, bs⟩ ∧
        Body.render ns ⟨.map (Dictionary.erase name es), bs⟩ = Body.render ns ⟨.map es, bs⟩) ∧
    ∀ name value root front back, name ∉ freeNames ns ∨ name ∈ Dictionary.keys front →
      Body.render ns ⟨root, front ++ (name, value) :: back⟩ =
        Body.render ns ⟨root, front ++ back⟩ := by
  refine ⟨fun σ τ h => render_congr h, ?_, ?_⟩
  · intro name value es bs h
    constructor
    · refine render_congr_root h fun other hne => ?_
      rw [Dictionary.find?_insert_of_ne hne]
    · refine render_congr_root h fun other hne => ?_
      rw [Dictionary.find?_erase, if_neg hne]
  · intro name value root front back h
    exact render_congr (Scope.agreeOn_of_binding h root value)

/-- Two nested loops and a missing name, in two scopes that have other roots and other chains of
bindings. They share what `rows` and `total` stand for, and that `missing` stands for nothing; the
loops bind `row` and `tag` on both sides, whatever these stand for outside. -/
theorem render_depends_on_freeNames_nested :
    let ns : Body := [.loop "row" "rows" [.loop "tag" "row.tags" [.expression "tag",
      .expression "total"]], .expression "missing"]
    let rows : Value := .list [.map [("tags", .list [.str "a", .str "b"])]]
    let σ : Scope := ⟨.map [("row", .nat 1), ("rows", .nat 2), ("total", .nat 7)],
      [("tag", .null), ("rows", rows), ("rows", .null)]⟩
    let τ : Scope := ⟨.map [("rows", rows), ("secret", .str "s")], [("total", .nat 7)]⟩
    (∀ name ∈ freeNames ns, σ.resolve? name = τ.resolve? name) ∧
      Body.render ns σ = Body.render ns τ ∧
      Body.render ns τ = .error (.variableNotFound "missing") ∧
      "tag" ∉ freeNames ns ∧ "rows" ∈ Dictionary.keys τ.root.entries ∧
      Body.render ns ⟨τ.root, [("total", .nat 7)] ++ ("total", .null) :: []⟩ =
        Body.render ns ⟨τ.root, [("total", .nat 7)] ++ []⟩ := by
  intro ns rows σ τ
  have hagree : ∀ name ∈ freeNames ns, σ.resolve? name = τ.resolve? name := by
    have hfree : freeNames ns = ["rows", "total", "missing"] := by decide +kernel
    rw [hfree]
    simp only [List.forall_mem_cons, List.not_mem_nil, false_imp_iff, implies_true, and_true]
    exact ⟨rfl, rfl, rfl⟩
  obtain ⟨hscopes, -, hbindings⟩ := render_depends_on_freeNames ns
  exact ⟨hagree, hscopes σ τ hagree, rfl, by decide +kernel, by decide +kernel,
    hbindings "total" .null τ.root [("total", .nat 7)] [] (Or.inr (by decide +kernel))⟩

end Body

end Stencil
