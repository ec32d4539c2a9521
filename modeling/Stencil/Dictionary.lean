/-!
# Dictionaries

A dictionary is a list of entries, each a name with a value. Inserting keeps the entries in
ascending order of their names and replaces the value of a name that is present, so a dictionary
built by insertion has every name once and is determined by what it maps names to. Names compare by
code point, which is the order of their bytes in UTF-8.

Finding a name takes the first entry of that name, whatever the order of the entries; the laws of
`find?` after `insert` and `erase` therefore hold for every list of entries.

## Main definitions

* `Stencil.Dictionary`: lists of entries.
* `Stencil.Dictionary.find?`, `Stencil.Dictionary.insert`, `Stencil.Dictionary.erase`,
  `Stencil.Dictionary.keys`, `Stencil.Dictionary.ofList`.
* `Stencil.Dictionary.Ascending`: every name is less than the names after it.

## Main results

* `Stencil.Dictionary.find?_insert`, `Stencil.Dictionary.find?_erase`.
* `Stencil.Dictionary.mem_keys_insert`, `Stencil.Dictionary.mem_keys_erase`.
* `Stencil.Dictionary.Ascending.insert`, `Stencil.Dictionary.Ascending.erase`.
* `Stencil.Dictionary.ext_of_find?`: ascending dictionaries that map alike are equal.
-/

namespace Stencil

universe u

/-- Entries of names and values. -/
abbrev Dictionary (α : Type u) := List (String × α)

namespace Dictionary

variable {α : Type u}

/-- The value of a name, if it has one. -/
def find? (name : String) : Dictionary α → Option α
  | [] => none
  | (k, v) :: es => if k = name then some v else find? name es

/-- The dictionary with a value put under a name. -/
def insert (name : String) (value : α) : Dictionary α → Dictionary α
  | [] => [(name, value)]
  | (k, v) :: es =>
    if name < k then (name, value) :: (k, v) :: es
    else if k = name then (name, value) :: es
    else (k, v) :: insert name value es

/-- The dictionary without a name. -/
def erase (name : String) (d : Dictionary α) : Dictionary α :=
  d.filter fun e => e.1 ≠ name

/-- The names, in the order of the entries. -/
def keys (d : Dictionary α) : List String :=
  d.map (·.1)

/-- Whether a name has a value. -/
def contains (d : Dictionary α) (name : String) : Bool :=
  (find? name d).isSome

/-- The dictionary of a list of entries; the last one of a name counts. -/
def ofList (es : List (String × α)) : Dictionary α :=
  es.foldl (fun d e => insert e.1 e.2 d) []

/-- Every name is less than the names after it. -/
def Ascending (d : Dictionary α) : Prop :=
  (keys d).Pairwise (· < ·)

/-! ### Finding -/

@[simp] theorem find?_nil (name : String) : find? name ([] : Dictionary α) = none := rfl

theorem find?_cons (name k : String) (v : α) (es : Dictionary α) :
    find? name ((k, v) :: es) = if k = name then some v else find? name es := rfl

@[simp] theorem find?_insert_self (name : String) (value : α) (d : Dictionary α) :
    find? name (insert name value d) = some value := by
  induction d with
  | nil => simp [insert, find?]
  | cons e es ih =>
    rw [insert]
    split
    · simp [find?]
    · split
      · simp [find?]
      · simp [find?, *]

theorem find?_insert_of_ne {name other : String} (h : name ≠ other) (value : α)
    (d : Dictionary α) : find? other (insert name value d) = find? other d := by
  induction d with
  | nil => simp [insert, find?, h]
  | cons e es ih =>
    rw [insert]
    split
    · simp [find?, h]
    · split
      · rename_i he
        simp [find?, h, he]
      · simp [find?, ih]

/-- A name that was just given a value has it; the other names keep theirs. -/
theorem find?_insert (name other : String) (value : α) (d : Dictionary α) :
    find? other (insert name value d) = if name = other then some value else find? other d := by
  split
  · rename_i h
    rw [h, find?_insert_self]
  · rename_i h
    exact find?_insert_of_ne h value d

/-- A name that was taken out has no value; the other names keep theirs. -/
theorem find?_erase (name other : String) (d : Dictionary α) :
    find? other (erase name d) = if name = other then none else find? other d := by
  induction d with
  | nil => simp [erase]
  | cons e es ih =>
    rw [erase] at ih
    by_cases he : e.1 = name <;> by_cases ho : name = other <;>
      simp_all [erase, find?]

/-! ### Names -/

@[simp] theorem keys_nil : keys ([] : Dictionary α) = [] := rfl

@[simp] theorem keys_cons (e : String × α) (es : Dictionary α) :
    keys (e :: es) = e.1 :: keys es := rfl

theorem find?_isSome_iff {name : String} {d : Dictionary α} :
    (find? name d).isSome = true ↔ name ∈ keys d := by
  induction d with
  | nil => simp
  | cons e es ih =>
    rw [find?, keys_cons, List.mem_cons, ← ih]
    split
    · rename_i h
      simp [h]
    · rename_i h
      simp [Ne.symm h]

theorem find?_eq_none_iff {name : String} {d : Dictionary α} :
    find? name d = none ↔ name ∉ keys d := by
  rw [← find?_isSome_iff, Bool.not_eq_true, Option.isSome_eq_false_iff, Option.isNone_iff_eq_none]

theorem mem_keys_insert {name other : String} {value : α} {d : Dictionary α} :
    other ∈ keys (insert name value d) ↔ other = name ∨ other ∈ keys d := by
  rw [← find?_isSome_iff, ← find?_isSome_iff, find?_insert]
  split
  · rename_i h
    simp [h]
  · rename_i h
    simp [Ne.symm h]

theorem mem_keys_erase {name other : String} {d : Dictionary α} :
    other ∈ keys (erase name d) ↔ other ≠ name ∧ other ∈ keys d := by
  rw [← find?_isSome_iff, ← find?_isSome_iff, find?_erase]
  split
  · rename_i h
    simp [h]
  · rename_i h
    simp [Ne.symm h]

/-! ### Order -/

theorem ascending_nil : Ascending ([] : Dictionary α) := List.Pairwise.nil

theorem ascending_cons {e : String × α} {es : Dictionary α} :
    Ascending (e :: es) ↔ (∀ k ∈ keys es, e.1 < k) ∧ Ascending es :=
  List.pairwise_cons

theorem lt_or_eq_or_gt (a b : String) : a < b ∨ a = b ∨ b < a := by
  by_cases h : a < b
  · exact Or.inl h
  · by_cases h' : b < a
    · exact Or.inr (Or.inr h')
    · exact Or.inr (Or.inl (String.le_antisymm (String.not_lt.1 h') (String.not_lt.1 h)))

theorem Ascending.insert {d : Dictionary α} (h : Ascending d) (name : String) (value : α) :
    Ascending (Dictionary.insert name value d) := by
  induction d with
  | nil => simp [Dictionary.insert, Ascending]
  | cons e es ih =>
    obtain ⟨he, hes⟩ := ascending_cons.1 h
    rw [Dictionary.insert]
    split
    · rename_i hlt
      refine ascending_cons.2 ⟨fun k hk => ?_, h⟩
      rcases List.mem_cons.1 hk with rfl | hk
      · exact hlt
      · exact String.lt_trans hlt (he k hk)
    · split
      · rename_i heq
        exact ascending_cons.2 ⟨fun k hk => by simpa [← heq] using he k hk, hes⟩
      · rename_i hlt hne
        refine ascending_cons.2 ⟨fun k hk => ?_, ih hes⟩
        rcases mem_keys_insert.1 hk with rfl | hk
        · rcases lt_or_eq_or_gt e.1 k with h | h | h
          · exact h
          · exact absurd h hne
          · exact absurd h hlt
        · exact he k hk

theorem Ascending.erase {d : Dictionary α} (h : Ascending d) (name : String) :
    Ascending (Dictionary.erase name d) := by
  refine List.Pairwise.sublist ?_ h
  exact (List.filter_sublist (l := d)).map _

theorem ascending_ofList (es : List (String × α)) : Ascending (ofList es) := by
  rw [ofList]
  generalize hd : ([] : Dictionary α) = d
  have h : Ascending d := hd ▸ ascending_nil
  clear hd
  induction es generalizing d with
  | nil => exact h
  | cons e es ih => exact ih _ (h.insert e.1 e.2)

/-- Two dictionaries in ascending order that map every name alike are the same. -/
theorem ext_of_find? {d e : Dictionary α} (hd : Ascending d) (he : Ascending e)
    (h : ∀ name, find? name d = find? name e) : d = e := by
  induction d generalizing e with
  | nil =>
    cases e with
    | nil => rfl
    | cons y ys => simpa [find?] using h y.1
  | cons x xs ih =>
    cases e with
    | nil => simpa [find?] using h x.1
    | cons y ys =>
      obtain ⟨hx, hxs⟩ := ascending_cons.1 hd
      obtain ⟨hy, hys⟩ := ascending_cons.1 he
      have hkey : x.1 = y.1 := by
        rcases lt_or_eq_or_gt x.1 y.1 with hlt | heq | hgt
        · have hxe : x.1 ∈ keys (y :: ys) := by
            rw [← find?_isSome_iff, ← h]
            simp [find?]
          rcases List.mem_cons.1 hxe with heq | hm
          · exact heq
          · exact absurd (String.lt_trans hlt (hy _ hm)) (String.lt_irrefl _)
        · exact heq
        · have hyd : y.1 ∈ keys (x :: xs) := by
            rw [← find?_isSome_iff, h]
            simp [find?]
          rcases List.mem_cons.1 hyd with heq | hm
          · exact heq.symm
          · exact absurd (String.lt_trans hgt (hx _ hm)) (String.lt_irrefl _)
      have hval : x.2 = y.2 := by
        have := h x.1
        simpa [find?, hkey] using this
      have hxy : x = y := Prod.ext hkey hval
      subst hxy
      congr 1
      refine ih hxs hys fun name => ?_
      have hn := h name
      simp only [find?] at hn
      split at hn
      · rename_i heq
        subst heq
        have hn1 : x.1 ∉ keys xs := fun hm => String.lt_irrefl _ (hx _ hm)
        have hn2 : x.1 ∉ keys ys := fun hm => String.lt_irrefl _ (hy _ hm)
        rw [find?_eq_none_iff.2 hn1, find?_eq_none_iff.2 hn2]
      · exact hn

end Dictionary

end Stencil
