import Stencil.Dictionary

/-!
# Filling dictionaries

A dictionary that is overwritten by a list of entries has, for every name, the value of its last
entry, and keeps what it had for a name without one. Where every name has one entry only, the order
of the entries is of no account: a permutation of them finds the same values, and a dictionary in
ascending order that is overwritten by it is the same dictionary.

## Main definitions

* `Stencil.Dictionary.insertAll`: a dictionary overwritten by several entries.

## Main results

* `Stencil.Dictionary.find?_insertAll`: the last entry of a name counts.
* `Stencil.Dictionary.find?_perm`, `Stencil.Dictionary.insertAll_perm`: permutations of entries that
  have every name once.
* `Stencil.Dictionary.Ascending.mem_iff_find?`: in ascending order every entry is found.
* `Stencil.Dictionary.Ascending.keys_eq`: in ascending order the names are listed in one way.
-/

namespace Stencil.Dictionary

variable {α : Type} {d es es' : Dictionary α} {name : String} {value : α}

/-- The dictionary overwritten by some entries, one after the other. -/
def insertAll {α : Type} (es : List (String × α)) (d : Dictionary α) : Dictionary α :=
  es.foldl (fun d e => insert e.1 e.2 d) d

/-! ### Finding in a list of entries -/

theorem find?_append (name : String) (d e : Dictionary α) :
    find? name (d ++ e) = (find? name d).or (find? name e) := by
  induction d with
  | nil => rfl
  | cons x d ih =>
    rw [List.cons_append, find?_cons, find?_cons, ih]
    split <;> rfl

theorem mem_keys_reverse : name ∈ keys d.reverse ↔ name ∈ keys d := by
  simp [keys]

/-- Where every name has one entry, each entry is found. -/
theorem find?_eq_some_iff_mem (h : (keys es).Nodup) :
    find? name es = some value ↔ (name, value) ∈ es := by
  induction es with
  | nil => simp
  | cons e es ih =>
    obtain ⟨he, hes⟩ := List.nodup_cons.1 h
    rw [List.mem_cons, ← ih hes, find?_cons]
    split
    · rename_i hname
      rw [← hname, find?_eq_none_iff.2 he, Prod.ext_iff]
      simp [eq_comm]
    · rename_i hname
      rw [Prod.ext_iff]
      simp [Ne.symm hname]

/-- Where every name has one entry, the order of the entries is of no account. -/
theorem find?_perm (h : es.Perm es') (hkeys : (keys es).Nodup) (name : String) :
    find? name es = find? name es' := by
  have hkeys' : (keys es').Nodup := (h.map _).nodup hkeys
  ext value
  rw [find?_eq_some_iff_mem hkeys, find?_eq_some_iff_mem hkeys', h.mem_iff]

theorem Ascending.nodup (h : Ascending d) : (keys d).Nodup := by
  refine List.Pairwise.imp ?_ h
  intro a b hlt heq
  exact String.lt_irrefl b (heq ▸ hlt)

/-- In ascending order every entry is found under its name. -/
theorem Ascending.mem_iff_find? (h : Ascending d) :
    (name, value) ∈ d ↔ find? name d = some value :=
  (find?_eq_some_iff_mem h.nodup).symm

/-- Two dictionaries in ascending order with the same names list them alike. -/
theorem Ascending.keys_eq {β : Type} {e : Dictionary β} (hd : Ascending d) (he : Ascending e)
    (h : ∀ name, name ∈ keys d ↔ name ∈ keys e) : keys d = keys e := by
  have hperm : (keys d).Perm (keys e) := (List.perm_ext_iff_of_nodup hd.nodup he.nodup).2 h
  refine hperm.eq_of_pairwise (fun a b _ _ hab hba => ?_) hd he
  exact absurd (String.lt_trans hab hba) (String.lt_irrefl a)

/-! ### Overwriting by several entries -/

/-- The last entry of a name counts; a name without one keeps its value. -/
theorem find?_insertAll (es : List (String × α)) (d : Dictionary α) (name : String) :
    find? name (insertAll es d) = (find? name es.reverse).or (find? name d) := by
  induction es generalizing d with
  | nil => rfl
  | cons e es ih =>
    rw [List.reverse_cons, find?_append, Option.or_assoc, find?_cons, find?_nil]
    show find? name (insertAll es (insert e.1 e.2 d)) = _
    rw [ih, find?_insert]
    split <;> rfl

theorem find?_insertAll_of_nodup (h : (keys es).Nodup) (d : Dictionary α) (name : String) :
    find? name (insertAll es d) = (find? name es).or (find? name d) := by
  rw [find?_insertAll, find?_perm es.reverse_perm.symm h]

theorem Ascending.insertAll (h : Ascending d) (es : List (String × α)) :
    Ascending (Dictionary.insertAll es d) := by
  induction es generalizing d with
  | nil => exact h
  | cons e es ih => exact ih (h.insert e.1 e.2)

/-- A dictionary in ascending order that is overwritten by entries with every name once does not
depend on the order of these entries. -/
theorem insertAll_perm (h : es.Perm es') (hkeys : (keys es).Nodup) (hd : Ascending d) :
    insertAll es d = insertAll es' d := by
  refine ext_of_find? (hd.insertAll es) (hd.insertAll es') fun name => ?_
  have hkeys' : (keys es').Nodup := (h.map _).nodup hkeys
  rw [find?_insertAll_of_nodup hkeys, find?_insertAll_of_nodup hkeys', find?_perm h hkeys]

/-- Sorting entries that have every name once does not change what is found. -/
theorem find?_ofList (h : (keys es).Nodup) (name : String) :
    find? name (ofList es) = find? name es := by
  show find? name (insertAll es []) = _
  rw [find?_insertAll_of_nodup h, find?_nil, Option.or_none]

theorem mem_of_mem_insert {e : String × α} (h : e ∈ insert name value d) :
    e = (name, value) ∨ e ∈ d := by
  induction d with
  | nil => exact Or.inl (List.mem_singleton.1 h)
  | cons x xs ih =>
    rw [insert] at h
    split at h
    · exact List.mem_cons.1 h
    · split at h
      · exact (List.mem_cons.1 h).imp_right (List.mem_cons_of_mem x)
      · rcases List.mem_cons.1 h with rfl | h
        · exact Or.inr List.mem_cons_self
        · exact (ih h).imp_right (List.mem_cons_of_mem x)

theorem mem_of_mem_insertAll {e : String × α} (h : e ∈ insertAll es d) : e ∈ es ∨ e ∈ d := by
  induction es generalizing d with
  | nil => exact Or.inr h
  | cons x xs ih =>
    rcases ih h with hmem | hmem
    · exact Or.inl (List.mem_cons_of_mem x hmem)
    · rcases mem_of_mem_insert hmem with rfl | hmem
      · exact Or.inl List.mem_cons_self
      · exact Or.inr hmem

/-- Sorting entries adds none. -/
theorem mem_of_mem_ofList {e : String × α} (h : e ∈ ofList es) : e ∈ es :=
  (mem_of_mem_insertAll h).resolve_right List.not_mem_nil

end Stencil.Dictionary
