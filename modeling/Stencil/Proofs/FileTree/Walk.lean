import Mathlib.Data.List.Sort
import Stencil.Proofs.Dictionary
import Stencil.Proofs.Path.Below

/-!
# Walking a tree of files

A walk through a directory tree lists its files, each with the names that lead to it. In a tree
whose directories have every name once, these are all files that the tree has at any depth, and each
of them is listed once. The walk goes depth first, and takes files and directories together in the
ascending order of their names; so what is listed is in ascending lexicographic order of the lists
of names. Nothing else is known of a walk, and nothing else has to be: there is only one listing
like that.

## Main definitions

* `Stencil.FileTree.at?`: what lies at the end of a list of names.
* `Stencil.FileTree.IsProper`: a tree whose directories have every name once, and only names that a
  directory can have.
* `Stencil.FileTree.IsWalk`: what a walk has to list, and in which order.

## Main results

* `Stencil.FileTree.IsProper.mem_files_iff`: the files of a tree are those that lie in it.
* `Stencil.FileTree.pairwise_files`: the order of the files.
* `Stencil.FileTree.isWalk_files`, `Stencil.FileTree.IsWalk.eq_files`: listing the files of a tree
  is a walk, and every walk lists them so.
* `Stencil.FileTree.IsProper.isOrdinary_of_at?`: the names that lead to something in a tree.
-/

namespace Stencil

namespace FileTree

/-! ### What lies in a tree -/

/-- What lies at the end of a list of names, each of which is looked up in a directory. -/
def at? : FileTree → List String → Option FileTree
  | t, [] => some t
  | file _, _ :: _ => none
  | directory entries, name :: names => (Dictionary.find? name entries).bind fun t => t.at? names

mutual

/-- Every directory of the tree has each name once, and only names that a directory can have. -/
def IsProper : FileTree → Prop
  | file _ => True
  | directory entries => (Dictionary.keys entries).Nodup ∧ AllProper entries

/-- The entries have names that a directory can have, and proper trees under them. -/
def AllProper : List (String × FileTree) → Prop
  | [] => True
  | (name, t) :: entries => Path.IsOrdinary name ∧ t.IsProper ∧ AllProper entries

end

mutual

/-- Whether a tree is proper. -/
def decideIsProper : (t : FileTree) → Decidable t.IsProper
  | file _ => .isTrue trivial
  | directory entries => @instDecidableAnd _ _ inferInstance (decideAllProper entries)

/-- Whether entries are proper. -/
def decideAllProper : (entries : List (String × FileTree)) → Decidable (AllProper entries)
  | [] => .isTrue trivial
  | (_, t) :: entries =>
    @instDecidableAnd _ _ inferInstance
      (@instDecidableAnd _ _ t.decideIsProper (decideAllProper entries))

end

instance (t : FileTree) : Decidable t.IsProper := t.decideIsProper

variable {t : FileTree} {entries : List (String × FileTree)} {name : String} {names : List String}

theorem AllProper.of_find? (h : AllProper entries)
    (hname : Dictionary.find? name entries = some t) :
    Path.IsOrdinary name ∧ t.IsProper := by
  induction entries with
  | nil => cases hname
  | cons e entries ih =>
    obtain ⟨hordinary, hproper, hentries⟩ := h
    rw [Dictionary.find?_cons] at hname
    split at hname
    · rename_i heq
      cases hname
      exact ⟨heq ▸ hordinary, hproper⟩
    · exact ih hentries hname

/-- The names that lead to something in a proper tree are names that a directory can have. -/
theorem IsProper.isOrdinary_of_at? (h : t.IsProper) {u : FileTree} (hu : t.at? names = some u) :
    ∀ name ∈ names, Path.IsOrdinary name := by
  induction names generalizing t with
  | nil => simp
  | cons name names ih =>
    cases t with
    | file content => cases hu
    | directory entries =>
      obtain ⟨child, hchild, hu⟩ := Option.bind_eq_some_iff.1 hu
      obtain ⟨hname, hproper⟩ := h.2.of_find? hchild
      exact List.forall_mem_cons.2 ⟨hname, ih hproper hu⟩

/-- A file in a directory has a name. -/
theorem ne_nil_of_at?_directory {content : Content}
    (h : (directory entries).at? names = some (file content)) : names ≠ [] := by
  rintro rfl
  cases h

/-! ### The files of a walk -/

theorem mem_below_iff {files : Listing} {content : Content} :
    (names, content) ∈ Listing.below name files ↔
      ∃ rest, names = name :: rest ∧ (rest, content) ∈ files := by
  simp only [Listing.below, List.mem_map, Prod.exists, Prod.mk.injEq]
  constructor
  · rintro ⟨rest, content, hmem, rfl, rfl⟩
    exact ⟨rest, rfl, hmem⟩
  · rintro ⟨rest, rfl, hmem⟩
    exact ⟨rest, content, hmem, rfl, rfl⟩

theorem keys_entryFiles (entries : List (String × FileTree)) :
    Dictionary.keys (entryFiles entries) = Dictionary.keys entries := by
  induction entries with
  | nil => rfl
  | cons e entries ih => rw [entryFiles, Dictionary.keys_cons, ih, Dictionary.keys_cons]

theorem find?_entryFiles (name : String) (entries : List (String × FileTree)) :
    Dictionary.find? name (entryFiles entries) = (Dictionary.find? name entries).map files := by
  induction entries with
  | nil => rfl
  | cons e entries ih =>
    rw [entryFiles, Dictionary.find?_cons, Dictionary.find?_cons, ih]
    split <;> rfl

/-- The files of a directory are those of its entries, below the names of the entries. -/
theorem mem_files_directory_iff (h : (Dictionary.keys entries).Nodup) {content : Content} :
    (names, content) ∈ (directory entries).files ↔
      ∃ name rest t, names = name :: rest ∧ Dictionary.find? name entries = some t ∧
        (rest, content) ∈ t.files := by
  have hkeys : (Dictionary.keys (entryFiles entries)).Nodup := by rwa [keys_entryFiles]
  rw [files, List.mem_flatMap]
  constructor
  · rintro ⟨⟨name, listing⟩, hmem, hbelow⟩
    obtain ⟨rest, rfl, hrest⟩ := mem_below_iff.1 hbelow
    rw [(Dictionary.ascending_ofList _).mem_iff_find?, Dictionary.find?_ofList hkeys,
      find?_entryFiles, Option.map_eq_some_iff] at hmem
    obtain ⟨t, ht, rfl⟩ := hmem
    exact ⟨name, rest, t, rfl, ht, hrest⟩
  · rintro ⟨name, rest, t, rfl, ht, hrest⟩
    refine ⟨(name, t.files), ?_, mem_below_iff.2 ⟨rest, rfl, hrest⟩⟩
    rw [(Dictionary.ascending_ofList _).mem_iff_find?, Dictionary.find?_ofList hkeys,
      find?_entryFiles, ht]
    rfl

/-- The files of a tree are those that lie in it. -/
theorem IsProper.mem_files_iff (h : t.IsProper) {content : Content} :
    (names, content) ∈ t.files ↔ t.at? names = some (file content) := by
  induction names generalizing t with
  | nil =>
    cases t with
    | file c => simp [files, at?, eq_comm]
    | directory entries => simp [mem_files_directory_iff h.1, at?]
  | cons name names ih =>
    cases t with
    | file c => simp [files, at?]
    | directory entries =>
      rw [mem_files_directory_iff h.1, at?, Option.bind_eq_some_iff]
      constructor
      · rintro ⟨name, rest, t, heq, ht, hrest⟩
        cases heq
        exact ⟨t, ht, (ih (h.2.of_find? ht).2).1 hrest⟩
      · rintro ⟨t, ht, hrest⟩
        exact ⟨name, names, t, rfl, ht, (ih (h.2.of_find? ht).2).2 hrest⟩

/-! ### The order of a walk -/

mutual

/-- A walk lists files in ascending lexicographic order of the names that lead to them. -/
theorem pairwise_files (t : FileTree) : t.files.Pairwise fun f g => f.1 < g.1 := by
  match t with
  | file content => exact List.pairwise_singleton ..
  | directory entries =>
    rw [files, List.pairwise_flatMap]
    constructor
    · -- Files of one entry share its name, and are in order behind it.
      intro e he
      rw [Listing.below, List.pairwise_map]
      refine (pairwise_of_mem_entryFiles entries e (Dictionary.mem_of_mem_ofList he)).imp ?_
      exact fun h => List.cons_lt_cons_iff.2 (Or.inr ⟨rfl, h⟩)
    · -- Files of two entries are told apart by the names of the entries.
      refine (List.pairwise_map.1 (Dictionary.ascending_ofList (entryFiles entries))).imp ?_
      rintro e e' hname ⟨names, content⟩ hmem ⟨names', content'⟩ hmem'
      obtain ⟨rest, rfl, -⟩ := mem_below_iff.1 hmem
      obtain ⟨rest', rfl, -⟩ := mem_below_iff.1 hmem'
      exact List.cons_lt_cons_iff.2 (Or.inl hname)

theorem pairwise_of_mem_entryFiles (entries : List (String × FileTree)) :
    ∀ e ∈ entryFiles entries, e.2.Pairwise fun f g => f.1 < g.1 := by
  match entries with
  | [] => simp [entryFiles]
  | (name, t) :: entries =>
    rw [entryFiles, List.forall_mem_cons]
    exact ⟨pairwise_files t, pairwise_of_mem_entryFiles entries⟩

end

/-! ### Walks -/

/-- What lists the files of trees is a walk: for a proper tree it lists the files that lie in it, in
ascending lexicographic order of the names that lead to them. -/
structure IsWalk (walk : FileTree → Listing) : Prop where
  mem_iff {t : FileTree} (h : t.IsProper) {names : List String} {content : Content} :
    (names, content) ∈ walk t ↔ t.at? names = some (file content)
  pairwise {t : FileTree} (h : t.IsProper) : (walk t).Pairwise fun f g => f.1 < g.1

theorem isWalk_files : IsWalk files where
  mem_iff h := h.mem_files_iff
  pairwise _ := pairwise_files _

/-- There is only one listing of the files of a proper tree in this order. -/
theorem IsWalk.eq_files {walk : FileTree → Listing} (hwalk : IsWalk walk) (h : t.IsProper) :
    walk t = t.files := by
  let before (f g : List String × Content) : Prop := f.1 < g.1
  have hirrefl : Std.Irrefl before := ⟨fun f => List.lt_irrefl f.1⟩
  have hasymm : Std.Antisymm before :=
    ⟨fun f g hfg hgf => absurd (List.lt_trans hfg hgf) (List.lt_irrefl f.1)⟩
  refine List.Pairwise.eq_of_mem_iff (r := before) (hwalk.pairwise h) (pairwise_files t) ?_
  rintro ⟨names, content⟩
  rw [hwalk.mem_iff h, h.mem_files_iff]

end FileTree

end Stencil
