import Stencil.Proofs.Body.InPlace

/-!
# How far a tree is open

The open path of a tree goes from its last node into the open body of that node, and on from there,
until there are no nodes or the last one has no open body. So a tree has a number of open levels,
and at each of them there is one body, its scope. Edits at a depth get to the scope of this level,
and whether they succeed there depends on the last node of the scope alone.

## Main definitions

* `Stencil.Body.openDepth`: the number of levels below a tree.
* `Stencil.Body.IsScope`: the body at a level of the open path.

## Main results

* `Stencil.Body.existsUnique_isScope_iff`: each open level has one scope.
* `Stencil.Body.exists_editAt_eq_ok_iff`: an edit at a depth succeeds if it does in the scope there.
* `Stencil.Edit.exists_apply_eq_ok_iff_and_inPlace_eq_error_iff`: which edits succeed, with which
  faults the others fail, and that they leave no trace.
-/

namespace Stencil

/-! ### Open levels -/

mutual

/-- The number of levels that are open in a node: none in text and expressions, and in a block one
for its open body and those below that. -/
def Node.openDepth : Node → Nat
  | .text _ => 0
  | .expression _ => 0
  | .conditional _ (some body) => Body.openDepth body + 1
  | .conditional branches none => Branch.openDepth branches
  | .loop _ _ body => Body.openDepth body + 1

/-- The number of levels that are open in a conditional without alternative: its last branch is
open. -/
def Branch.openDepth : List Branch → Nat
  | [] => 0
  | [⟨_, body⟩] => Body.openDepth body + 1
  | _ :: b :: branches => Branch.openDepth (b :: branches)

/-- The number of levels that are open below a body: those of its last node. -/
def Body.openDepth : Body → Nat
  | [] => 0
  | [n] => n.openDepth
  | _ :: n :: ns => Body.openDepth (n :: ns)

end

theorem Branch.openDepth_append_singleton (branches : List Branch) (b : Branch) :
    openDepth (branches ++ [b]) = Body.openDepth b.body + 1 := by
  induction branches with
  | nil =>
    obtain ⟨condition, body⟩ := b
    rfl
  | cons c branches ih =>
    obtain ⟨condition, body⟩ := c
    cases branches with
    | nil => exact ih
    | cons d branches => exact ih

theorem Body.openDepth_append_singleton (ns : Body) (n : Node) :
    openDepth (ns ++ [n]) = n.openDepth := by
  induction ns with
  | nil => rfl
  | cons m ns ih =>
    cases ns with
    | nil => rfl
    | cons k ns => exact ih

/-- A block has one more open level than its open body. -/
theorem Frame.openDepth_fill (f : Frame) (body : Body) :
    (f.fill body).openDepth = Body.openDepth body + 1 := by
  cases f with
  | branch earlier condition => exact Branch.openDepth_append_singleton earlier ⟨condition, body⟩
  | alternative branches => rfl
  | loop name collection => rfl

theorem Node.openDepth_of_openBody_eq_error {n : Node} {fault : StatementFault}
    (h : n.openBody = .error fault) : n.openDepth = 0 := by
  cases n with
  | text s => rfl
  | expression path => rfl
  | loop name collection body => cases h
  | conditional branches alternative =>
    cases alternative with
    | some body => cases h
    | none =>
      rw [openBody] at h
      cases hlast : branches.getLast? with
      | none =>
        rw [List.getLast?_eq_none_iff.1 hlast]
        rfl
      | some last =>
        rw [hlast] at h
        cases h

namespace Body

theorem openDepth_of_openLast {ns before inner : Body} {frame : Frame}
    (h : openLast ns = .ok (before, frame, inner)) : openDepth ns = openDepth inner + 1 := by
  rw [← append_fill_of_openLast h, openDepth_append_singleton, frame.openDepth_fill]

theorem openDepth_of_openLast_eq_error {ns : Body} {fault : StatementFault}
    (h : openLast ns = .error fault) : openDepth ns = 0 := by
  rcases List.eq_nil_or_concat ns with rfl | ⟨before, n, rfl⟩
  · rfl
  · rw [List.concat_eq_append] at h ⊢
    rw [openLast_append_singleton, map_eq_error_iff] at h
    rw [openDepth_append_singleton, Node.openDepth_of_openBody_eq_error h]

/-! ### Scopes -/

/-- The body that lies some levels down the open path of a body. -/
inductive IsScope : Body → Nat → Body → Prop
  | here (ns : Body) : IsScope ns 0 ns
  | inside (before : Body) (frame : Frame) {inner scope : Body} {level : Nat}
      (h : IsScope inner level scope) : IsScope (before ++ [frame.fill inner]) (level + 1) scope

theorem isScope_zero_iff {ns scope : Body} : IsScope ns 0 scope ↔ scope = ns := by
  constructor
  · intro h
    cases h
    rfl
  · rintro rfl
    exact .here scope

section Level

variable {ns before inner scope : Body} {frame : Frame} {fault : StatementFault} {level : Nat}

/-- Below the first level there are the scopes of the open body. -/
theorem isScope_succ_iff (hopen : openLast ns = .ok (before, frame, inner)) :
    IsScope ns (level + 1) scope ↔ IsScope inner level scope := by
  constructor
  · intro h
    cases h with
    | inside before frame h =>
      rw [openLast_append_singleton, Frame.openBody_fill] at hopen
      cases hopen
      exact h
  · intro h
    rw [← append_fill_of_openLast hopen]
    exact .inside before frame h

theorem not_isScope_succ (hopen : openLast ns = .error fault) : ¬ IsScope ns (level + 1) scope := by
  intro h
  cases h with
  | inside before frame h =>
    rw [openLast_append_singleton, Frame.openBody_fill] at hopen
    cases hopen

end Level

/-- There is one scope at each open level, and none below. -/
theorem existsUnique_isScope_iff {ns : Body} {level : Nat} :
    (∃! scope, IsScope ns level scope) ↔ level ≤ openDepth ns := by
  induction level generalizing ns with
  | zero => exact iff_of_true ⟨ns, .here ns, fun _ => isScope_zero_iff.1⟩ (Nat.zero_le _)
  | succ level ih =>
    cases hopen : openLast ns with
    | error fault =>
      rw [openDepth_of_openLast_eq_error hopen]
      exact iff_of_false (fun ⟨_, h, _⟩ => not_isScope_succ hopen h) (Nat.not_succ_le_zero level)
    | ok opened =>
      obtain ⟨before, frame, inner⟩ := opened
      simp only [isScope_succ_iff hopen]
      rw [ih, openDepth_of_openLast hopen, Nat.succ_le_succ_iff]

theorem IsScope.le_openDepth {ns scope : Body} {level : Nat} (h : IsScope ns level scope) :
    level ≤ openDepth ns := by
  induction h with
  | here ns => exact Nat.zero_le _
  | inside before frame _ ih =>
    rw [openDepth_append_singleton, frame.openDepth_fill]
    exact Nat.succ_le_succ ih

theorem exists_isScope_iff {ns : Body} {level : Nat} :
    (∃ scope, IsScope ns level scope) ↔ level ≤ openDepth ns :=
  ⟨fun ⟨_, h⟩ => h.le_openDepth, fun h => (existsUnique_isScope_iff.2 h).exists⟩

/-! ### Edits of a scope -/

section Success

variable {f : Body → Except StatementFault Body} {ns : Body}

/-- An edit some levels down succeeds if there is a scope and it does in this scope. -/
theorem exists_editAt_eq_ok_iff {level : Nat} : (∃ ns', editAt f level ns = .ok ns') ↔
    ∃ scope, IsScope ns level scope ∧ ∃ scope', f scope = .ok scope' := by
  induction level generalizing ns with
  | zero => simp only [isScope_zero_iff, exists_eq_left, editAt_zero]
  | succ level ih =>
    rw [editAt]
    cases hopen : openLast ns with
    | error fault =>
      refine iff_of_false ?_ ?_
      · rintro ⟨ns', ⟨⟩⟩
      · rintro ⟨scope, h, -⟩
        exact not_isScope_succ hopen h
    | ok opened =>
      obtain ⟨before, frame, inner⟩ := opened
      simp only [isScope_succ_iff hopen, exists_map_eq_ok_iff]
      exact ih

theorem exists_edit_eq_ok_iff {depth : Int} : (∃ ns', edit f depth ns = .ok ns') ↔
    0 ≤ depth ∧ ∃ scope, IsScope ns depth.toNat scope ∧ ∃ scope', f scope = .ok scope' := by
  rw [← exists_editAt_eq_ok_iff, edit]
  split
  · rename_i hneg
    refine iff_of_false ?_ fun h => absurd h.1 (Int.not_le.2 hneg)
    rintro ⟨ns', ⟨⟩⟩
  · rename_i hneg
    rw [and_iff_right (Int.not_lt.1 hneg)]
    exact exists_mapError_eq_ok_iff

/-- A depth has a scope if it is not negative and not beyond the open levels. -/
theorem exists_isScope_toNat_iff {depth : Int} :
    (0 ≤ depth ∧ ∃ scope, IsScope ns depth.toNat scope) ↔ 0 ≤ depth ∧ depth ≤ openDepth ns := by
  rw [exists_isScope_iff, Int.toNat_le]

/-- A negative depth is a fault of the braces. -/
theorem exists_edit_eq_brackets_iff {depth : Int} :
    (∃ cause, edit f depth ns = .error (.brackets cause)) ↔ depth < 0 := by
  rw [edit]
  split
  · rename_i hneg
    exact iff_of_true ⟨_, rfl⟩ hneg
  · rename_i hneg
    simp only [mapError_eq_error_iff]
    refine iff_of_false ?_ hneg
    rintro ⟨cause, fault, -, ⟨⟩⟩

/-- All other faults of an edit are faults of the statement. -/
theorem exists_edit_eq_statement_iff {depth : Int} :
    (∃ cause, edit f depth ns = .error (.statement cause)) ↔
      0 ≤ depth ∧ ¬ ∃ ns', edit f depth ns = .ok ns' := by
  rw [edit]
  split
  · rename_i hneg
    refine iff_of_false ?_ fun h => absurd h.1 (Int.not_le.2 hneg)
    rintro ⟨cause, ⟨⟩⟩
  · rename_i hneg
    rw [and_iff_right (Int.not_lt.1 hneg), exists_mapError_eq_ok_iff, ← exists_eq_error_iff]
    simp only [mapError_eq_error_iff, Fault.statement.injEq, exists_eq_right]

theorem exists_editLast_eq_ok_iff {whenEmpty : StatementFault}
    {g : Node → Except StatementFault Node} :
    (∃ ns', editLast whenEmpty g ns = .ok ns') ↔
      ∃ n, ns.getLast? = some n ∧ ∃ n', g n = .ok n' := by
  rw [editLast]
  cases ns.getLast? with
  | none =>
    refine iff_of_false ?_ ?_
    · rintro ⟨ns', ⟨⟩⟩
    · rintro ⟨n, ⟨⟩, -⟩
  | some n => simp only [Option.some.injEq, exists_eq_left', exists_map_eq_ok_iff]

/-- An edit of the last node at a depth succeeds if there is a scope and it does on the last node of
the scope. -/
theorem exists_edit_editLast_eq_ok_iff {whenEmpty : StatementFault}
    {g : Node → Except StatementFault Node} {depth : Int} :
    (∃ ns', edit (editLast whenEmpty g) depth ns = .ok ns') ↔
      (0 ≤ depth ∧ depth ≤ openDepth ns) ∧ ∃ scope last, IsScope ns depth.toNat scope ∧
        scope.getLast? = some last ∧ ∃ n', g last = .ok n' := by
  rw [exists_edit_eq_ok_iff, ← exists_isScope_toNat_iff]
  simp only [exists_editLast_eq_ok_iff]
  constructor
  · rintro ⟨hdepth, scope, hscope, last, hlast⟩
    exact ⟨⟨hdepth, scope, hscope⟩, scope, last, hscope, hlast⟩
  · rintro ⟨⟨hdepth, -⟩, scope, last, hscope, hlast⟩
    exact ⟨hdepth, scope, hscope, last, hlast⟩

end Success

end Body

theorem Node.exists_pushBranch_eq_ok_iff {n : Node} {b : Branch} :
    (∃ n', n.pushBranch b = .ok n') ↔ ∃ branches, n = .conditional branches none := by
  match n with
  | .conditional branches none => exact iff_of_true ⟨_, rfl⟩ ⟨branches, rfl⟩
  | .conditional _ (some _) | .loop _ _ _ | .text _ | .expression _ =>
    exact iff_of_false nofun nofun

theorem Node.exists_openAlternative_eq_ok_iff {n : Node} :
    (∃ n', n.openAlternative = .ok n') ↔
      ∃ branches, n = .conditional branches none ∧ branches ≠ [] := by
  match n with
  | .conditional (b :: branches) none =>
    exact iff_of_true ⟨_, rfl⟩ ⟨b :: branches, rfl, List.cons_ne_nil b branches⟩
  | .conditional [] alternative =>
    refine iff_of_false nofun ?_
    rintro ⟨branches, heq, hne⟩
    cases heq
    exact hne rfl
  | .conditional (_ :: _) (some _) | .loop _ _ _ | .text _ | .expression _ =>
    exact iff_of_false nofun nofun

/-! ### The result -/

namespace Edit

/-- The depth of an edit. -/
def depth : Edit → Int
  | node _ depth => depth
  | branch _ depth => depth
  | alternative depth => depth

/-- What an edit does to the scope at its depth. -/
def change : Edit → Body → Except StatementFault Body
  | node n _, scope => .ok (scope ++ [n])
  | branch b _, scope => Body.pushBranch b scope
  | alternative _, scope => Body.openAlternative scope

theorem apply_eq_edit (e : Edit) (ns : Body) : e.apply ns = Body.edit e.change e.depth ns := by
  cases e <;> rfl

/-- **Edits succeed on the open path and leave no trace otherwise.** At each level down to the open
depth of a tree there is one scope. A node can be added at every such depth, a branch if the last
node of the scope is a conditional without alternative, and an alternative if this conditional has a
branch. A negative depth is a fault of the braces, and every other edit that fails has a fault of
the statement. Carried out where the tree stands, an edit that fails leaves all of it as it was. -/
theorem exists_apply_eq_ok_iff_and_inPlace_eq_error_iff (ns : Body) :
    (∀ level, (∃! scope, ns.IsScope level scope) ↔ level ≤ ns.openDepth) ∧
    (∀ n depth, (∃ ns', ns.addNode n depth = .ok ns') ↔ 0 ≤ depth ∧ depth ≤ ns.openDepth) ∧
    (∀ b depth, (∃ ns', ns.addBranch b depth = .ok ns') ↔ (0 ≤ depth ∧ depth ≤ ns.openDepth) ∧
      ∃ scope last, ns.IsScope depth.toNat scope ∧ scope.getLast? = some last ∧
        ∃ branches, last = .conditional branches none) ∧
    (∀ depth, (∃ ns', ns.addAlternative depth = .ok ns') ↔ (0 ≤ depth ∧ depth ≤ ns.openDepth) ∧
      ∃ scope last, ns.IsScope depth.toNat scope ∧ scope.getLast? = some last ∧
        ∃ branches, last = .conditional branches none ∧ branches ≠ []) ∧
    (∀ e : Edit, ((∃ cause, e.apply ns = .error (.brackets cause)) ↔ e.depth < 0) ∧
      ((∃ cause, e.apply ns = .error (.statement cause)) ↔
        0 ≤ e.depth ∧ ¬ ∃ ns', e.apply ns = .ok ns')) ∧
    ∀ (e : Edit) (left : Body), (e.inPlace ns = .ok () left ↔ e.apply ns = .ok left) ∧
      ∀ fault, e.inPlace ns = .error fault left ↔ e.apply ns = .error fault ∧ left = ns := by
  refine ⟨fun level => Body.existsUnique_isScope_iff, fun n depth => ?_, fun b depth => ?_,
    fun depth => ?_, fun e => ?_, fun e left => ?_⟩
  · rw [Body.addNode, Body.exists_edit_eq_ok_iff, ← Body.exists_isScope_toNat_iff]
    simp only [Except.ok.injEq, exists_eq', and_true]
  · simp only [← Node.exists_pushBranch_eq_ok_iff (b := b)]
    exact Body.exists_edit_editLast_eq_ok_iff
  · simp only [← Node.exists_openAlternative_eq_ok_iff]
    exact Body.exists_edit_editLast_eq_ok_iff
  · rw [e.apply_eq_edit]
    exact ⟨Body.exists_edit_eq_brackets_iff, Body.exists_edit_eq_statement_iff⟩
  · exact ⟨e.performs_inPlace.eq_ok_iff, fun fault => e.performs_inPlace.eq_error_iff⟩

end Edit

end Stencil
