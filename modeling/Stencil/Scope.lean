import Stencil.Fault
import Stencil.Text.Split

/-!
# Scopes

A scope says what names stand for while a template is rendered: the entries of a root value, and
bindings in front of them, the innermost first. A path is a name and further keys with dots between
them; it is followed into maps, key by key. The key `count` at the end of a path is the length of a
list.

## Main definitions

* `Stencil.Scope`, `Stencil.Scope.ofRoot`, `Stencil.Scope.bind`.
* `Stencil.Scope.resolve?`: the value of a name.
* `Stencil.Value.follow?`: the value at the end of a list of keys.
* `Stencil.Scope.lookup?`, `Stencil.Scope.lookup`: the value of a path.
* `Stencil.Scope.condition`, `Stencil.Scope.collection`: the value of a path as a boolean and as a
  list.

## Main results

* `Stencil.Scope.resolve?_bind_self`, `Stencil.Scope.resolve?_bind_of_ne`: a binding hides what its
  name stood for, and nothing else.
* `Stencil.Scope.lookup_eq_ok_iff`, `Stencil.Scope.lookup_eq_error_iff`.
-/

namespace Stencil

/-- The key that is the length of a list. -/
def countKey : String := "count"

/-- The value at the end of a list of keys. -/
def Value.follow? : Value → List String → Option Value
  | v, [] => some v
  | .map es, key :: keys => (Dictionary.find? key es).bind fun v => v.follow? keys
  | .list items, key :: keys =>
    if key = countKey ∧ keys = [] then some (.nat items.length) else none
  | _, _ :: _ => none

/-- What names stand for: bindings, innermost first, and the entries of a root value. -/
structure Scope where
  root : Value
  bindings : Dictionary Value

namespace Scope

/-- The scope without bindings. -/
def ofRoot (root : Value) : Scope := ⟨root, []⟩

/-- The scope in which a name stands for a value, whatever it stood for before. -/
def bind (σ : Scope) (name : String) (value : Value) : Scope :=
  { σ with bindings := (name, value) :: σ.bindings }

/-- The value of a name: that of the innermost binding, or else the entry of the root. -/
def resolve? (σ : Scope) (name : String) : Option Value :=
  (Dictionary.find? name σ.bindings).or (Dictionary.find? name σ.root.entries)

/-- The value of a path. -/
def lookup? (σ : Scope) (path : String) : Option Value :=
  match Text.split '.' path with
  | [] => none
  | head :: keys => (σ.resolve? head).bind fun v => v.follow? keys

/-- The value of a path; a path that leads nowhere is a fault. -/
def lookup (σ : Scope) (path : String) : Except Fault Value :=
  match σ.lookup? path with
  | some v => .ok v
  | none => .error (.variableNotFound path)

/-- The boolean that a path leads to. -/
def condition (σ : Scope) (path : String) : Except Fault Bool := do
  match ← σ.lookup path with
  | .bool b => return b
  | v => throw (.typeMismatch path v.kind)

/-- The list that a path leads to. -/
def collection (σ : Scope) (path : String) : Except Fault (List Value) := do
  match ← σ.lookup path with
  | .list items => return items
  | v => throw (.notACollection path v.kind)

@[simp] theorem resolve?_bind_self (σ : Scope) (name : String) (value : Value) :
    (σ.bind name value).resolve? name = some value := by
  simp [resolve?, bind, Dictionary.find?]

theorem resolve?_bind_of_ne {name other : String} (h : name ≠ other) (σ : Scope) (value : Value) :
    (σ.bind name value).resolve? other = σ.resolve? other := by
  simp [resolve?, bind, Dictionary.find?, h]

/-! ### Lookups -/

theorem lookup_eq_ok_iff {σ : Scope} {path : String} {v : Value} :
    σ.lookup path = .ok v ↔ σ.lookup? path = some v := by
  rw [lookup]
  split <;> simp_all

/-- The only fault of a lookup names the whole path. -/
theorem lookup_eq_error_iff {σ : Scope} {path : String} {fault : Fault} :
    σ.lookup path = .error fault ↔ σ.lookup? path = none ∧ fault = .variableNotFound path := by
  rw [lookup]
  cases σ.lookup? path with
  | none => simp [eq_comm]
  | some v => simp

end Scope

end Stencil
