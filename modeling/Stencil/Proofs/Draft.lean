import Stencil.Draft

/-!
# Opening a block once more

A block that was closed last is the last node of its body, and it is the block of some frame. The
laws say what the events `else {` and `else if condition {` do to a draft of that form: only the
last branch of a conditional can be followed by `else`.

## Main results

* `Stencil.Draft.apply_otherwise_eq_ok_iff`, `Stencil.Draft.apply_elseIf_eq_ok_iff`: when and how
  `else` opens the block that was closed last.
-/

namespace Stencil

namespace Frame

theorem fill_pushBranch_branch (earlier : List Branch) (c c' : String) (inner : Body) :
    ((branch earlier c).fill inner).pushBranch (.ofCondition c') =
      .ok ((branch (earlier ++ [⟨c, inner⟩]) c').fill []) := rfl

theorem fill_openAlternative_branch (earlier : List Branch) (c : String) (inner : Body) :
    ((branch earlier c).fill inner).openAlternative =
      .ok ((alternative (earlier ++ [⟨c, inner⟩])).fill []) := by
  cases earlier <;> rfl

end Frame

namespace Draft

variable {before inner : Body} {frame : Frame} {stack : List (Body × Frame)}

/-- The last node of a body is opened again with one more body in it. -/
theorem reopen_append_fill (d : Draft) :
    d.reopen (.ok (before ++ [frame.fill inner])) =
      .ok ⟨inner, (before, frame) :: d.enclosing⟩ := by
  rw [reopen, Body.openLast_append_singleton, Frame.openBody_fill]
  rfl

theorem apply_elseIf_branch (earlier : List Branch) (c c' : String) :
    apply ⟨before ++ [(Frame.branch earlier c).fill inner], stack⟩ (.elseIf c') =
      .ok ⟨[], (before, .branch (earlier ++ [⟨c, inner⟩]) c') :: stack⟩ := by
  rw [apply, Body.pushBranch, Body.editLast_append_singleton, Frame.fill_pushBranch_branch]
  exact reopen_append_fill _

theorem apply_otherwise_branch (earlier : List Branch) (c : String) :
    apply ⟨before ++ [(Frame.branch earlier c).fill inner], stack⟩ .otherwise =
      .ok ⟨[], (before, .alternative (earlier ++ [⟨c, inner⟩])) :: stack⟩ := by
  rw [apply, Body.openAlternative, Body.editLast_append_singleton,
    Frame.fill_openAlternative_branch]
  exact reopen_append_fill _

/-- `else if` follows the last branch of a conditional. -/
theorem apply_elseIf_eq_ok_iff {c' : String} {d : Draft} :
    apply ⟨before ++ [frame.fill inner], stack⟩ (.elseIf c') = .ok d ↔
      ∃ earlier c, frame = .branch earlier c ∧
        d = ⟨[], (before, .branch (earlier ++ [⟨c, inner⟩]) c') :: stack⟩ := by
  cases frame with
  | branch earlier c =>
    rw [apply_elseIf_branch]
    constructor
    · intro h
      exact ⟨earlier, c, rfl, (Except.ok.inj h).symm⟩
    · rintro ⟨_, _, hf, rfl⟩
      obtain ⟨rfl, rfl⟩ := Frame.branch.inj hf
      rfl
  | _ => simp [apply, Body.pushBranch, Frame.fill, Node.pushBranch, reopen, Except.map]

/-- `else` follows the last branch of a conditional. -/
theorem apply_otherwise_eq_ok_iff {d : Draft} :
    apply ⟨before ++ [frame.fill inner], stack⟩ .otherwise = .ok d ↔
      ∃ earlier c, frame = .branch earlier c ∧
        d = ⟨[], (before, .alternative (earlier ++ [⟨c, inner⟩])) :: stack⟩ := by
  cases frame with
  | branch earlier c =>
    rw [apply_otherwise_branch]
    constructor
    · intro h
      exact ⟨earlier, c, rfl, (Except.ok.inj h).symm⟩
    · rintro ⟨_, _, hf, rfl⟩
      obtain ⟨rfl, rfl⟩ := Frame.branch.inj hf
      rfl
  | alternative branches =>
    cases branches <;>
      simp [apply, Body.openAlternative, Frame.fill, Node.openAlternative, reopen, Except.map]
  | loop x c =>
    simp [apply, Body.openAlternative, Frame.fill, Node.openAlternative, reopen, Except.map]

theorem finish_eq_ok_iff {d : Draft} {ns : Body} :
    d.finish = .ok ns ↔ d.enclosing = [] ∧ ns = d.body := by
  cases h : d.enclosing <;> simp [finish, h, eq_comm]

end Draft

end Stencil
