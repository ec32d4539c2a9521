import Stencil.Proofs.FreeName
import Stencil.Proofs.Text.Split

/-!
# Paths, key by key

A path is a first name and keys behind it, and its value is reached one key at a time: from a map a
key leads to the entry of the map, from a list the one key for it leads to the length, and from
anywhere else no key leads on. What a path leads to is therefore known from what the path without
its last key leads to, and a path that goes on behind one that leads nowhere leads nowhere.

The length of a list ends a path because it is a number and a number has no keys; no key has to be
looked at together with the keys behind it. An empty text is a name and a key like any other.

## Main definitions

* `Stencil.Value.entry?`: the value to which one key leads.

## Main results

* `Stencil.Value.follow?_eq_foldlM`: several keys are one key after the other.
* `Stencil.Scope.lookup?_append`, `Stencil.Scope.lookup?_append_key`: a path that goes on.
* `Stencil.Scope.lookup_name_and_lookup_append_key`: the value of a name, and of a path with one
  more key.
-/

namespace Stencil

/-! ### One key -/

namespace Value

/-- The value under a key: the entry of a map, or the length of a list. -/
def entry? : Value → String → Option Value
  | map es, key => Dictionary.find? key es
  | list items, key => if key = countKey then some (nat items.length) else none
  | _, _ => none

/-- Several keys are followed one after the other. -/
theorem follow?_eq_foldlM (v : Value) (keys : List String) :
    v.follow? keys = keys.foldlM entry? v := by
  induction keys generalizing v with
  | nil => rw [follow?]; rfl
  | cons key keys ih =>
    rw [List.foldlM_cons]
    cases v with
    | map es =>
      rw [follow?, entry?]
      exact congrArg (Option.bind _) (funext ih)
    | list items =>
      rw [follow?, entry?]
      by_cases hkey : key = countKey
      · -- The length is a number, so it is the value of the path or there is none.
        cases keys with
        | nil => simp [hkey]
        | cons key' keys => simp [hkey, List.foldlM_cons, entry?]
      · simp [hkey]
    | _ => rfl

theorem follow?_append (v : Value) (keys keys' : List String) :
    v.follow? (keys ++ keys') = (v.follow? keys).bind fun w => w.follow? keys' := by
  simp only [follow?_eq_foldlM, List.foldlM_append]
  rfl

theorem follow?_singleton (v : Value) (key : String) : v.follow? [key] = v.entry? key := by
  rw [follow?_eq_foldlM, List.foldlM_cons]
  cases v.entry? key <;> rfl

/-- A number has no keys. -/
theorem follow?_nat_of_ne_nil {keys : List String} (h : keys ≠ []) (n : Nat) :
    (nat n).follow? keys = none := by
  cases keys with
  | nil => exact absurd rfl h
  | cons key keys => rfl

end Value

/-! ### Paths that go on -/

namespace Scope

variable {σ : Scope} {path key name : String}

/-- A path is followed from the value of its first name, one key after the other. -/
theorem lookup?_eq_foldlM (σ : Scope) (path : String) :
    σ.lookup? path = (σ.resolve? (headName path)).bind fun v =>
      (Text.split '.' path).tail.foldlM Value.entry? v := by
  rw [lookup?_eq_bind]
  simp only [Value.follow?_eq_foldlM]

/-- A path that goes on is followed from the value reached so far. -/
theorem lookup?_append (σ : Scope) (path rest : String) :
    σ.lookup? (path ++ "." ++ rest) =
      (σ.lookup? path).bind fun v => v.follow? (Text.split '.' rest) := by
  have hsplit : Text.split '.' (path ++ "." ++ rest) = Text.split '.' path ++ Text.split '.' rest :=
    Text.split_append_sep_append path rest
  have hne : Text.split '.' path ≠ [] := Text.split_ne_nil '.' path
  rw [lookup?, lookup?, hsplit]
  cases hpath : Text.split '.' path with
  | nil => exact absurd hpath hne
  | cons head keys =>
    simp only [List.cons_append, Value.follow?_append, Option.bind_assoc]

/-- One more key of a path. -/
theorem lookup?_append_key (h : '.' ∉ key.toList) (σ : Scope) (path : String) :
    σ.lookup? (path ++ "." ++ key) = (σ.lookup? path).bind fun v => v.entry? key := by
  rw [lookup?_append, Text.split_of_notMem h]
  simp only [Value.follow?_singleton]

/-- Behind a path that leads nowhere nothing is found. -/
theorem lookup?_append_of_eq_none (h : σ.lookup? path = none) (rest : String) :
    σ.lookup? (path ++ "." ++ rest) = none := by
  rw [lookup?_append, h, Option.bind_none]

/-- Behind the length of a list nothing is found. -/
theorem lookup?_append_count {items : List Value} (h : σ.lookup? path = some (.list items))
    (rest : String) : σ.lookup? (path ++ "." ++ countKey ++ "." ++ rest) = none := by
  have hcount : σ.lookup? (path ++ "." ++ countKey) = some (.nat items.length) := by
    rw [lookup?_append_key (by decide), h]
    rfl
  rw [lookup?_append, hcount]
  exact Value.follow?_nat_of_ne_nil (Text.split_ne_nil '.' rest) items.length

/-! ### Faults of a path that goes on -/

theorem lookup_eq_elim (σ : Scope) (path : String) :
    σ.lookup path = (σ.lookup? path).elim (.error (.variableNotFound path)) .ok := by
  rw [lookup]
  cases σ.lookup? path <;> rfl

/-- What one more key leads to is known from what the path led to. -/
theorem lookup_append_key (h : '.' ∉ key.toList) (σ : Scope) (path : String) :
    let whole := path ++ "." ++ key
    σ.lookup whole =
      match σ.lookup path with
      | .ok (.map es) => (Dictionary.find? key es).elim (.error (.variableNotFound whole)) .ok
      | .ok (.list items) =>
        if key = countKey then .ok (.nat items.length) else .error (.variableNotFound whole)
      | _ => .error (.variableNotFound whole) := by
  intro whole
  rw [lookup_eq_elim, lookup?_append_key h, lookup_eq_elim]
  cases σ.lookup? path with
  | none => rfl
  | some v =>
    cases v with
    | list items =>
      simp only [Option.bind_some, Option.elim_some, Value.entry?]
      split <;> rfl
    | _ => rfl

/-- **A path is followed key by key.** A name without dots has the value that it stands for, and a
path is followed from there through its keys. What a path with one more key leads to is known from
what the path leads to: the entry of a map, the length of a list under the one key for it, and
nothing otherwise, which is a fault that names the whole path. So the entry of a map under the key
for the length is found like any other, the length of a list ends a path, and behind a path that
leads nowhere nothing is found. Empty names and keys have no dots, and they make no exception. -/
theorem lookup_name_and_lookup_append_key (σ : Scope) :
    (∀ name, '.' ∉ name.toList →
      σ.lookup name = (σ.resolve? name).elim (.error (.variableNotFound name)) .ok) ∧
    (∀ path, σ.lookup? path = (σ.resolve? (headName path)).bind fun v =>
      (Text.split '.' path).tail.foldlM Value.entry? v) ∧
    (∀ path key, '.' ∉ key.toList →
      let whole := path ++ "." ++ key
      σ.lookup whole =
        match σ.lookup path with
        | .ok (.map es) => (Dictionary.find? key es).elim (.error (.variableNotFound whole)) .ok
        | .ok (.list items) =>
          if key = countKey then .ok (.nat items.length) else .error (.variableNotFound whole)
        | _ => .error (.variableNotFound whole)) ∧
    (∀ path es v, σ.lookup path = .ok (.map es) → Dictionary.find? countKey es = some v →
      σ.lookup (path ++ "." ++ countKey) = .ok v) ∧
    (∀ path items, σ.lookup path = .ok (.list items) →
      σ.lookup (path ++ "." ++ countKey) = .ok (.nat items.length) ∧
        ∀ rest, let whole := path ++ "." ++ countKey ++ "." ++ rest
          σ.lookup whole = .error (.variableNotFound whole)) ∧
    ∀ path fault, σ.lookup path = .error fault → ∀ rest,
      let whole := path ++ "." ++ rest
      σ.lookup whole = .error (.variableNotFound whole) := by
  have hcount : '.' ∉ countKey.toList := by decide
  refine ⟨fun name hname => ?_, σ.lookup?_eq_foldlM, fun path key => ?_, ?_, ?_, ?_⟩
  · rw [lookup_eq_elim, lookup?_of_notMem_dot hname]
  · intro hkey
    exact lookup_append_key hkey σ path
  · intro path es v hpath hentry
    rw [lookup_append_key hcount, hpath]
    simp only [hentry, Option.elim_some]
  · intro path items hpath
    constructor
    · rw [lookup_append_key hcount, hpath]
      exact if_pos rfl
    · intro rest
      exact lookup_eq_error_iff.2 ⟨lookup?_append_count (lookup_eq_ok_iff.1 hpath) rest, rfl⟩
  · intro path fault hpath rest
    have hnone := (lookup_eq_error_iff.1 hpath).1
    exact lookup_eq_error_iff.2 ⟨lookup?_append_of_eq_none hnone rest, rfl⟩

/-- A map with an entry under the key for the length, a list, and a map whose name and key are
empty. -/
theorem lookup_name_and_lookup_append_key_of_stats :
    let σ := ofRoot (.map [("", .map [("", .str "e")]),
      ("stats", .map [("count", .int 42), ("rows", .list [.null, .null])])])
    '.' ∉ "".toList ∧ '.' ∉ "rows".toList ∧
      σ.lookup "" = .ok (.map [("", .str "e")]) ∧ σ.lookup "." = .ok (.str "e") ∧
      σ.lookup "stats.rows" = .ok (.list [.null, .null]) ∧ σ.lookup "stats.count" = .ok (.int 42) ∧
      σ.lookup "stats.rows.count" = .ok (.nat 2) ∧
      σ.lookup "stats.rows.count.count" = .error (.variableNotFound "stats.rows.count.count") ∧
      σ.lookup "rows" = .error (.variableNotFound "rows") ∧
      σ.lookup "rows.count" = .error (.variableNotFound "rows.count") := by
  intro σ
  obtain ⟨hname, -, hkey, hentry, hlength, hnone⟩ := lookup_name_and_lookup_append_key σ
  have hempty : '.' ∉ "".toList := by decide
  have hrows : '.' ∉ "rows".toList := by decide
  have hstats :
      σ.lookup "stats" = .ok (.map [("count", .int 42), ("rows", .list [.null, .null])]) :=
    hname "stats" (by decide)
  have hlist : σ.lookup "stats.rows" = .ok (.list [.null, .null]) := hkey "stats" "rows" hrows
  have hmissing : σ.lookup "rows" = .error (.variableNotFound "rows") := hname "rows" hrows
  exact ⟨hempty, hrows, hname "" hempty, hkey "" "" hempty, hlist, hentry "stats" _ _ hstats rfl,
    (hlength "stats.rows" _ hlist).1, (hlength "stats.rows" _ hlist).2 "count", hmissing,
    hnone "rows" _ hmissing "count"⟩

end Scope

end Stencil
