import Mathlib.Data.List.Forall2
import Mathlib.Data.List.Perm.Basic

/-!
# Computations that may fail

A computation with several steps succeeds when all of them do, and fails with the fault of the first
step that has one. In the same way a list is traversed element by element. So a predicate that holds
of the faults of all steps holds of the faults of the whole.

## Main definitions

* `Stencil.failure?`: the fault of a computation.
* `Stencil.FailsOnly`: a computation whose faults all satisfy a predicate.
* `Stencil.FailsAlike`: two computations with the same result or with related faults.

## Main results

* `Stencil.bind_eq_ok_iff`, `Stencil.map_eq_ok_iff`, `Stencil.map_eq_error_iff`: when one step
  follows another.
* `Stencil.mapError_eq_error_iff`: faults taken to another type.
* `Stencil.mapM_eq_ok_iff_forall₂`: the results of a traversal.
* `Stencil.mapM_perm`: a permutation of what is traversed permutes the results.
* `Stencil.failure?_bind`, `Stencil.failure?_mapM`: the first fault of several steps.
* `Stencil.FailsOnly.bind`, `Stencil.FailsOnly.mapM`: the faults of several steps.
* `Stencil.FailsAlike.bind`, `Stencil.FailsAlike.mapM`: two computations compared step by step.
-/

namespace Stencil

variable {ε α β : Type}

/-! ### One step after another -/

section Step

variable {x : Except ε α} {f : α → Except ε β} {g : α → β} {b : β} {e : ε}

theorem bind_eq_ok_iff : x.bind f = .ok b ↔ ∃ a, x = .ok a ∧ f a = .ok b := by
  cases x with
  | error e => exact iff_of_false nofun nofun
  | ok a => exact ⟨fun h => ⟨a, rfl, h⟩, fun ⟨_, ha, h⟩ => Except.ok.inj ha ▸ h⟩

theorem map_eq_ok_iff : x.map g = .ok b ↔ ∃ a, x = .ok a ∧ g a = b := by
  cases x with
  | error e => exact iff_of_false nofun nofun
  | ok a =>
    exact ⟨fun h => ⟨a, rfl, Except.ok.inj h⟩, fun ⟨_, ha, h⟩ => by rw [ha, ← h]; rfl⟩

theorem map_eq_error_iff : x.map g = .error e ↔ x = .error e := by
  cases x with
  | error e' => exact ⟨fun h => by cases h; rfl, fun h => by cases h; rfl⟩
  | ok a => exact iff_of_false nofun nofun

theorem exists_eq_error_iff : (∃ e, x = .error e) ↔ ¬ ∃ a, x = .ok a := by
  cases x with
  | error e => exact iff_of_true ⟨e, rfl⟩ nofun
  | ok a => exact iff_of_false nofun fun h => h ⟨a, rfl⟩

theorem toOption_eq_some_iff {a : α} : x.toOption = some a ↔ x = .ok a := by
  cases x with
  | error e => exact iff_of_false nofun nofun
  | ok a' => exact Option.some_inj.trans ⟨congrArg _, Except.ok.inj⟩

theorem exists_map_eq_ok_iff : (∃ b, x.map g = .ok b) ↔ ∃ a, x = .ok a := by
  cases x with
  | error e => exact iff_of_false nofun nofun
  | ok a => exact iff_of_true ⟨g a, rfl⟩ ⟨a, rfl⟩

end Step

/-! ### Faults of another type -/

section Fault

variable {ε' : Type} {x : Except ε α} {g : ε → ε'} {e' : ε'}

theorem exists_mapError_eq_ok_iff : (∃ a, x.mapError g = .ok a) ↔ ∃ a, x = .ok a := by
  cases x with
  | error e => exact iff_of_false nofun nofun
  | ok a => exact iff_of_true ⟨a, rfl⟩ ⟨a, rfl⟩

theorem mapError_eq_error_iff : x.mapError g = .error e' ↔ ∃ e, x = .error e ∧ g e = e' := by
  cases x with
  | error e =>
    exact ⟨fun h => ⟨e, rfl, Except.error.inj h⟩, fun ⟨_, he, h⟩ => by rw [he, ← h]; rfl⟩
  | ok a => exact iff_of_false nofun nofun

end Fault

/-! ### Traversals -/

section Traversal

variable {f : α → Except ε β} {as as' : List α} {bs : List β}

/-- A traversal succeeds with the results of its elements. -/
theorem mapM_eq_ok_iff_forall₂ :
    as.mapM f = .ok bs ↔ List.Forall₂ (fun a b => f a = .ok b) as bs := by
  induction as generalizing bs with
  | nil =>
    rw [List.forall₂_nil_left_iff, List.mapM_nil]
    exact ⟨fun h => (Except.ok.inj h).symm, fun h => h ▸ rfl⟩
  | cons a as ih =>
    rw [List.forall₂_cons_left_iff, List.mapM_cons]
    constructor
    · intro h
      obtain ⟨b, ha, h⟩ := bind_eq_ok_iff.1 h
      obtain ⟨cs, has, hcons⟩ := bind_eq_ok_iff.1 h
      exact ⟨b, cs, ha, ih.1 has, (Except.ok.inj hcons).symm⟩
    · rintro ⟨b, cs, ha, has, rfl⟩
      rw [ha, ih.2 has]
      rfl

/-- The result at a place is that of the element there. -/
theorem getElem?_of_mapM (has : as.mapM f = .ok bs) (i : Nat) {b : β} :
    bs[i]? = some b ↔ ∃ a, as[i]? = some a ∧ f a = .ok b := by
  rw [mapM_eq_ok_iff_forall₂] at has
  induction has generalizing i with
  | nil => simp
  | cons ha _ ih =>
    cases i with
    | zero => simp [ha]
    | succ i => simpa only [List.getElem?_cons_succ] using ih i

/-- Functions with the same results on all elements give the same traversal. -/
theorem mapM_congr {g : α → Except ε β} (h : ∀ a ∈ as, f a = g a) : as.mapM f = as.mapM g := by
  induction as with
  | nil => rfl
  | cons a as ih =>
    obtain ⟨ha, has⟩ := List.forall_mem_cons.1 h
    rw [List.mapM_cons, List.mapM_cons, ha, ih has]

/-- A permutation of what is traversed permutes the results. -/
theorem mapM_perm (h : as.Perm as') (has : as.mapM f = .ok bs) :
    ∃ bs', as'.mapM f = .ok bs' ∧ bs.Perm bs' := by
  obtain ⟨bs', has', hperm⟩ :=
    List.perm_comp_forall₂ h.symm (mapM_eq_ok_iff_forall₂.1 has)
  exact ⟨bs', mapM_eq_ok_iff_forall₂.2 has', hperm.symm⟩

theorem map_eq_map_of_mapM {γ : Type} {g : α → γ} {k : β → γ}
    (hf : ∀ a b, f a = .ok b → g a = k b) (has : as.mapM f = .ok bs) : as.map g = bs.map k := by
  rw [← List.forall₂_eq_eq_eq, List.forall₂_map_left_iff, List.forall₂_map_right_iff]
  exact (mapM_eq_ok_iff_forall₂.1 has).imp hf

end Traversal

/-! ### The fault of a computation -/

/-- The fault of a computation, if it fails. -/
def failure? : Except ε α → Option ε
  | .error e => some e
  | .ok _ => none

section Failure

variable {x : Except ε α} {e : ε}

theorem failure?_eq_some_iff : failure? x = some e ↔ x = .error e := by
  cases x with
  | error e' => exact Option.some_inj.trans ⟨congrArg _, Except.error.inj⟩
  | ok a => exact iff_of_false nofun nofun

theorem failure?_eq_none_iff : failure? x = none ↔ ∃ a, x = .ok a := by
  cases x with
  | error e => exact iff_of_false nofun nofun
  | ok a => exact iff_of_true rfl ⟨a, rfl⟩

@[simp] theorem failure?_map (x : Except ε α) (g : α → β) : failure? (x.map g) = failure? x := by
  cases x <;> rfl

/-- The fault of two steps of which the second one does not depend on the first one. -/
theorem failure?_bind (x : Except ε α) {f : α → Except ε β} {o : Option ε}
    (h : ∀ a, failure? (f a) = o) : failure? (x.bind f) = (failure? x).or o := by
  cases x with
  | error e => rfl
  | ok a => exact h a

/-- A traversal fails with the first fault of an element. -/
theorem failure?_mapM (f : α → Except ε β) (as : List α) :
    failure? (as.mapM f) = as.findSome? fun a => failure? (f a) := by
  induction as with
  | nil => rfl
  | cons a as ih =>
    rw [List.mapM_cons, List.findSome?_cons, ← ih]
    cases f a with
    | error e => rfl
    | ok b => cases as.mapM f <;> rfl

/-- A traversal fails with the first of several faults that are listed for each element. -/
theorem failure?_mapM_of_head? {f : α → Except ε β} {faults : α → List ε} {as : List α}
    (h : ∀ a ∈ as, failure? (f a) = (faults a).head?) :
    failure? (as.mapM f) = (as.flatMap faults).head? := by
  rw [failure?_mapM, List.head?_flatMap]
  induction as with
  | nil => rfl
  | cons a as ih =>
    obtain ⟨ha, has⟩ := List.forall_mem_cons.1 h
    rw [List.findSome?_cons, List.findSome?_cons, ha, ih has]

/-- A traversal succeeds if it does so at each element. -/
theorem exists_mapM_eq_ok_iff {f : α → Except ε β} {as : List α} :
    (∃ bs, as.mapM f = .ok bs) ↔ ∀ a ∈ as, ∃ b, f a = .ok b := by
  simp only [← failure?_eq_none_iff, failure?_mapM, List.findSome?_eq_none_iff]

end Failure

/-! ### Predicates on faults -/

/-- Every fault of the computation satisfies the predicate. -/
def FailsOnly (P : ε → Prop) (x : Except ε α) : Prop :=
  ∀ fault, x = .error fault → P fault

namespace FailsOnly

variable {P Q : ε → Prop} {x : Except ε α} {f : α → Except ε β}

theorem ok (a : α) : FailsOnly P (.ok a) := nofun

theorem error {fault : ε} (h : P fault) : FailsOnly P (.error fault : Except ε α) := by
  rintro _ ⟨⟩
  exact h

theorem mono (h : FailsOnly P x) (hpq : ∀ fault, P fault → Q fault) : FailsOnly Q x :=
  fun fault hfault => hpq fault (h fault hfault)

theorem bind (hx : FailsOnly P x) (hf : ∀ a, FailsOnly P (f a)) : FailsOnly P (x >>= f) := by
  cases x with
  | error e => exact error (hx e rfl)
  | ok a => exact hf a

theorem map (hx : FailsOnly P x) (g : α → β) : FailsOnly P (x.map g) :=
  fun fault h => hx fault (map_eq_error_iff.1 h)

theorem mapM {as : List α} (h : ∀ a ∈ as, FailsOnly P (f a)) : FailsOnly P (as.mapM f) := by
  induction as with
  | nil => exact ok []
  | cons a as ih =>
    rw [List.mapM_cons]
    obtain ⟨ha, has⟩ := List.forall_mem_cons.1 h
    exact ha.bind fun b => (ih has).bind fun bs => ok (b :: bs)

end FailsOnly

/-! ### Relations between faults -/

/-- Two computations have the same result, or both fail and their faults are related. -/
inductive FailsAlike (R : ε → ε → Prop) : Except ε α → Except ε α → Prop
  | ok (a : α) : FailsAlike R (.ok a) (.ok a)
  | error {e e' : ε} (h : R e e') : FailsAlike R (.error e) (.error e')

namespace FailsAlike

variable {R : ε → ε → Prop} {x x' : Except ε α} {f f' : α → Except ε β}

theorem refl (hR : ∀ e, R e e) (x : Except ε α) : FailsAlike R x x := by
  cases x with
  | error e => exact error (hR e)
  | ok a => exact ok a

theorem bind (hx : FailsAlike R x x') (hf : ∀ a, FailsAlike R (f a) (f' a)) :
    FailsAlike R (x >>= f) (x' >>= f') := by
  cases hx with
  | ok a => exact hf a
  | error h => exact error h

theorem mapM (hf : ∀ a, FailsAlike R (f a) (f' a)) (as : List α) :
    FailsAlike R (as.mapM f) (as.mapM f') := by
  induction as with
  | nil => exact ok []
  | cons a as ih =>
    rw [List.mapM_cons, List.mapM_cons]
    exact (hf a).bind fun b => ih.bind fun bs => ok (b :: bs)

/-- What the two computations come to. -/
theorem eq_ok_or_eq_error (h : FailsAlike R x x') :
    (∃ a, x = .ok a ∧ x' = .ok a) ∨ ∃ e e', x = .error e ∧ x' = .error e' ∧ R e e' := by
  cases h with
  | ok a => exact .inl ⟨a, rfl, rfl⟩
  | error h => exact .inr ⟨_, _, rfl, rfl, h⟩

end FailsAlike

end Stencil
