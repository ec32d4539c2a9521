import Stencil.Body.Render
import Stencil.Proofs.Fallible

/-!
# What rendering does not use

Rendering uses the conditions of a conditional up to the first one that is true or has a fault, then
the body of that branch or the alternative, and the body of a loop once for every item. What it does
not use can be anything. Two bodies *run alike* in a scope when they are the same in what rendering
uses there; what that is depends on the scope, so the bodies of loops are compared in the scope of
every item.

## Main definitions

* `Stencil.Part`: a body, a node, or the branches of a conditional with its alternative.
* `Stencil.RunsAlike`: parts that are the same in what rendering uses.

## Main results

* `Stencil.Node.render_conditional_of_true`, `Stencil.Node.render_conditional_of_error`,
  `Stencil.Node.render_conditional_of_false`, `Stencil.Node.render_loop_of_nil`: the output of a
  conditional and of a loop without items.
* `Stencil.RunsAlike.render_eq`: parts that run alike have the same output or the same fault.
* `Stencil.Body.render_eq_of_runsAlike`: the same for bodies, with the parts that never matter.
-/

namespace Stencil

/-! ### Conditionals and loops -/

namespace Node

variable {σ : Scope} {condition : String} {body : Body} {front branches : List Branch}
  {alternative : Option Body}

theorem render_conditional_nil (alternative : Option Body) (σ : Scope) :
    (conditional [] alternative).render σ = Body.renderOption alternative σ := by
  rw [render, Branch.renderFirst]
  rfl

/-- The first branch is used when its condition is true. When it is false, the other branches
decide. -/
theorem render_conditional_cons (condition : String) (body : Body) (branches : List Branch)
    (alternative : Option Body) (σ : Scope) :
    (conditional (⟨condition, body⟩ :: branches) alternative).render σ =
      (σ.condition condition).bind fun b =>
        if b then Body.render body σ else (conditional branches alternative).render σ := by
  rw [render, Branch.renderFirst]
  cases σ.condition condition with
  | error fault => rfl
  | ok b =>
    cases b with
    | false => rw [render]; rfl
    | true => cases Body.render body σ <;> rfl

/-- Branches with false conditions are passed over. -/
theorem render_conditional_append (h : ∀ b ∈ front, σ.condition b.condition = .ok false)
    (branches : List Branch) (alternative : Option Body) :
    (conditional (front ++ branches) alternative).render σ =
      (conditional branches alternative).render σ := by
  induction front with
  | nil => rfl
  | cons b front ih =>
    obtain ⟨condition, body⟩ := b
    obtain ⟨hb, hfront⟩ := List.forall_mem_cons.1 h
    rw [List.cons_append, render_conditional_cons, hb]
    exact ih hfront

/-- The body of the first branch whose condition is true is all that is used of a conditional. -/
theorem render_conditional_of_true (h : ∀ b ∈ front, σ.condition b.condition = .ok false)
    (htrue : σ.condition condition = .ok true) :
    (conditional (front ++ ⟨condition, body⟩ :: branches) alternative).render σ =
      Body.render body σ := by
  rw [render_conditional_append h, render_conditional_cons, htrue]
  rfl

/-- A condition with a fault ends the rendering, unless a condition in front of it is true. -/
theorem render_conditional_of_error {fault : Fault}
    (h : ∀ b ∈ front, σ.condition b.condition = .ok false)
    (herror : σ.condition condition = .error fault) :
    (conditional (front ++ ⟨condition, body⟩ :: branches) alternative).render σ = .error fault := by
  rw [render_conditional_append h, render_conditional_cons, herror]
  rfl

/-- Without a true condition the alternative is all that is used. -/
theorem render_conditional_of_false (h : ∀ b ∈ branches, σ.condition b.condition = .ok false) :
    (conditional branches alternative).render σ = Body.renderOption alternative σ := by
  rw [← List.append_nil branches, render_conditional_append h, render_conditional_nil]

/-- The body of a loop without items is not used. -/
theorem render_loop_of_nil {name collection : String} (h : σ.collection collection = .ok []) :
    (loop name collection body).render σ = .ok "" := by
  rw [render_loop, h]
  rfl

/-- Loops over the same collection whose bodies have the same output for every item. -/
theorem render_loop_congr {name collection : String} {body' : Body}
    (h : ∀ items, σ.collection collection = .ok items → ∀ item ∈ items,
      Body.render body (σ.bind name item) = Body.render body' (σ.bind name item)) :
    (loop name collection body).render σ = (loop name collection body').render σ := by
  rw [render_loop, render_loop]
  cases hitems : σ.collection collection with
  | error fault => rfl
  | ok items =>
    simp only [Except.bind]
    rw [mapM_congr (h items hitems)]

end Node

/-! ### Running alike -/

/-- What a template is compared in: a body, a node, or the branches of a conditional that are still
to be tried, with its alternative. -/
inductive Part where
  | body (ns : Body)
  | node (n : Node)
  | arms (branches : List Branch) (alternative : Option Body)

/-- The output of a part. -/
def Part.render : Part → Scope → Except Fault String
  | body ns, σ => Body.render ns σ
  | node n, σ => n.render σ
  | arms branches alternative, σ => (Node.conditional branches alternative).render σ

/-- Two parts are the same in what rendering uses in the scope. -/
inductive RunsAlike : Scope → Part → Part → Prop
  | nil (σ : Scope) : RunsAlike σ (.body []) (.body [])
  | cons {σ n n' ns ns'} (hn : RunsAlike σ (.node n) (.node n'))
      (hns : RunsAlike σ (.body ns) (.body ns')) : RunsAlike σ (.body (n :: ns)) (.body (n' :: ns'))
  | text (σ : Scope) (s : String) : RunsAlike σ (.node (.text s)) (.node (.text s))
  | expression (σ : Scope) (path : String) :
      RunsAlike σ (.node (.expression path)) (.node (.expression path))
  /-- The bodies of loops are compared for every item, and not at all when there is no list. -/
  | loop {σ name collection body body'}
      (hbody : ∀ items, σ.collection collection = .ok items → ∀ item ∈ items,
        RunsAlike (σ.bind name item) (.body body) (.body body')) :
      RunsAlike σ (.node (.loop name collection body)) (.node (.loop name collection body'))
  | conditional {σ branches branches' alternative alternative'}
      (harms : RunsAlike σ (.arms branches alternative) (.arms branches' alternative')) :
      RunsAlike σ (.node (.conditional branches alternative))
        (.node (.conditional branches' alternative'))
  /-- Behind a true condition neither branches nor alternatives are compared. -/
  | taken {σ condition body body' branches branches' alternative alternative'}
      (htrue : σ.condition condition = .ok true) (hbody : RunsAlike σ (.body body) (.body body')) :
      RunsAlike σ (.arms (⟨condition, body⟩ :: branches) alternative)
        (.arms (⟨condition, body'⟩ :: branches') alternative')
  /-- Behind a condition with a fault nothing is compared. -/
  | failed {σ condition body body' branches branches' alternative alternative' fault}
      (herror : σ.condition condition = .error fault) :
      RunsAlike σ (.arms (⟨condition, body⟩ :: branches) alternative)
        (.arms (⟨condition, body'⟩ :: branches') alternative')
  /-- The bodies of a branch whose condition is false are not compared. -/
  | skipped {σ condition body body' branches branches' alternative alternative'}
      (hfalse : σ.condition condition = .ok false)
      (harms : RunsAlike σ (.arms branches alternative) (.arms branches' alternative')) :
      RunsAlike σ (.arms (⟨condition, body⟩ :: branches) alternative)
        (.arms (⟨condition, body'⟩ :: branches') alternative')
  | noAlternative (σ : Scope) : RunsAlike σ (.arms [] none) (.arms [] none)
  | alternative {σ body body'} (hbody : RunsAlike σ (.body body) (.body body')) :
      RunsAlike σ (.arms [] (some body)) (.arms [] (some body'))

/-- Parts that run alike have the same output or the same fault. -/
theorem RunsAlike.render_eq {σ : Scope} {p q : Part} (h : RunsAlike σ p q) :
    p.render σ = q.render σ := by
  -- The scope is generalised: the hypothesis for a loop is about the scope of every item.
  induction h with
  | nil σ => rfl
  | cons hn hns ihn ihns =>
    simp only [Part.render] at ihn ihns ⊢
    rw [Body.render_cons, Body.render_cons, ihn, ihns]
  | text σ s => rfl
  | expression σ path => rfl
  | loop hbody ih => exact Node.render_loop_congr ih
  | conditional harms ih => exact ih
  | taken htrue hbody ih =>
    simp only [Part.render, Node.render_conditional_cons, htrue]
    exact ih
  | failed herror =>
    simp only [Part.render, Node.render_conditional_cons, herror]
    rfl
  | skipped hfalse harms ih =>
    simp only [Part.render, Node.render_conditional_cons, hfalse]
    exact ih
  | noAlternative σ => rfl
  | alternative hbody ih =>
    simp only [Part.render, Node.render_conditional_nil]
    exact ih

/-- **Only what is used counts.** Bodies that run alike in a scope have the same output or the same
fault there. The bodies of branches that are not taken, the branches behind the first true
condition, an alternative that is not used and the body of a loop without items are never used:
whatever they are, the output is that of the rest, and they are no cause of a fault. -/
theorem Body.render_eq_of_runsAlike (σ : Scope) :
    (∀ ns ns', RunsAlike σ (.body ns) (.body ns') → render ns σ = render ns' σ) ∧
    (∀ front condition body behind alternative,
      (∀ b ∈ front, σ.condition b.condition = .ok false) → σ.condition condition = .ok true →
        (Node.conditional (front ++ ⟨condition, body⟩ :: behind) alternative).render σ =
          render body σ) ∧
    (∀ front condition body behind alternative fault,
      (∀ b ∈ front, σ.condition b.condition = .ok false) → σ.condition condition = .error fault →
        (Node.conditional (front ++ ⟨condition, body⟩ :: behind) alternative).render σ =
          .error fault) ∧
    (∀ branches alternative, (∀ b ∈ branches, σ.condition b.condition = .ok false) →
      (Node.conditional branches alternative).render σ = renderOption alternative σ) ∧
    ∀ name collection body, σ.collection collection = .ok [] →
      (Node.loop name collection body).render σ = .ok "" := by
  refine ⟨?_, ?_, ?_, ?_, ?_⟩
  · intro ns ns' h
    exact h.render_eq
  · intro front condition body behind alternative hfront htrue
    exact Node.render_conditional_of_true hfront htrue
  · intro front condition body behind alternative fault hfront herror
    exact Node.render_conditional_of_error hfront herror
  · intro branches alternative hbranches
    exact Node.render_conditional_of_false hbranches
  · intro name collection body hnone
    exact Node.render_loop_of_nil hnone

/-- Two bodies that differ in a branch behind a true condition, in a branch with a false condition,
in an alternative that is not used and in a loop without items; in the first one, all of these have
faults. Behind the bodies, the conditionals and the loop that use the least. -/
theorem Body.render_eq_of_runsAlike_of_rows :
    let σ := Scope.ofRoot (.map [("hidden", .bool false), ("none", .list []),
      ("rows", .list [.bool true, .bool true]), ("shown", .bool true), ("title", .str "T")])
    let fault : Body := [.expression "missing"]
    let ns : Body := [
      .loop "row" "rows" [.conditional [⟨"hidden", fault⟩, ⟨"row", [.expression "title"]⟩,
        ⟨"title", fault⟩] (some fault)],
      .loop "x" "none" fault]
    let ns' : Body := [
      .loop "row" "rows" [.conditional [⟨"hidden", []⟩, ⟨"row", [.expression "title"]⟩] none],
      .loop "x" "none" []]
    RunsAlike σ (.body ns) (.body ns') ∧ render ns σ = render ns' σ ∧ render ns' σ = .ok "TT" ∧
      (Node.conditional [⟨"hidden", fault⟩, ⟨"shown", []⟩, ⟨"title", fault⟩] none).render σ =
        .ok "" ∧
      (Node.conditional [⟨"hidden", fault⟩, ⟨"title", fault⟩, ⟨"shown", []⟩] none).render σ =
        .error (.typeMismatch "title" .string) ∧
      (Node.conditional [⟨"hidden", fault⟩] none).render σ = .ok "" ∧
      (Node.loop "x" "none" fault).render σ = .ok "" := by
  intro σ fault ns ns'
  have hnone : σ.collection "none" = .ok [] := rfl
  have hrows : σ.collection "rows" = .ok [.bool true, .bool true] := rfl
  have hrow : ∀ items, σ.collection "rows" = .ok items → ∀ item ∈ items, RunsAlike
      (σ.bind "row" item)
      (.body [.conditional [⟨"hidden", fault⟩, ⟨"row", [.expression "title"]⟩, ⟨"title", fault⟩]
        (some fault)])
      (.body [.conditional [⟨"hidden", []⟩, ⟨"row", [.expression "title"]⟩] none]) := by
    intro items hitems item hitem
    rw [hrows, Except.ok.injEq] at hitems
    have htrue : item = .bool true := by simpa [← hitems] using hitem
    subst htrue
    have hbody := RunsAlike.cons (.expression (σ.bind "row" (.bool true)) "title") (.nil _)
    exact .cons (.conditional (.skipped rfl (.taken rfl hbody))) (.nil _)
  have hempty : ∀ items, σ.collection "none" = .ok items → ∀ item ∈ items,
      RunsAlike (σ.bind "x" item) (.body fault) (.body []) := by
    intro items hitems item hitem
    rw [hnone, Except.ok.injEq] at hitems
    rw [← hitems] at hitem
    cases hitem
  have halike : RunsAlike σ (.body ns) (.body ns') :=
    .cons (.loop hrow) (.cons (.loop hempty) (.nil σ))
  obtain ⟨hrender, htrue, herror, hfalse, hloop⟩ := render_eq_of_runsAlike σ
  have hcondition : σ.condition "hidden" = .ok false := rfl
  have hhidden : ∀ b ∈ [Branch.mk "hidden" fault], σ.condition b.condition = .ok false :=
    List.forall_mem_singleton.2 hcondition
  refine ⟨halike, hrender ns ns' halike, rfl, ?_, ?_, hfalse _ none hhidden,
    hloop "x" _ fault hnone⟩
  · exact htrue [⟨"hidden", fault⟩] "shown" [] [⟨"title", fault⟩] none hhidden rfl
  · exact herror [⟨"hidden", fault⟩] "title" fault [⟨"shown", []⟩] none _ hhidden rfl

end Stencil
