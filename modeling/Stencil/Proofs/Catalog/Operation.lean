import Stencil.Catalog.Load

/-!
# Runs of operations on a catalog

A catalog is changed by inserting and removing single templates, by loading assets or a directory,
by configuring it and by setting its default layout. Whatever loads templates offers a list of
sources, and the catalog attempts them one after the other: it stops at a source that cannot be
read, and behind one with a fault.

## Main definitions

* `Stencil.Operation`, `Stencil.Operation.apply`, `Stencil.Catalog.run`: operations and runs of them
  from the catalog without templates.
* `Stencil.Operation.offers`: the sources that an operation offers to the catalog.
* `Stencil.attempts`, `Stencil.Operation.attempts`: the sources that are attempted.

## Main results

* `Stencil.Catalog.insertEach_append_of_error`, `Stencil.Catalog.insertEach_append_of_ok`: loading
  two lists of sources.
* `Stencil.Catalog.loadDirectory_eq_insertEach`, `Stencil.Catalog.configure_eq_insertEach`: loads
  insert the sources that they are offered.
-/

namespace Stencil

/-! ### Operations -/

/-- An operation on a catalog. Every load comes with the disk as it is at that moment. -/
inductive Operation where
  | insert (name source : String)
  | remove (name : String)
  | insertAll (assets : List (String × String))
  | loadDirectory (disk : Disk) (directory extension : String)
  | configure (disk : Disk) (settings : Settings)
  | setDefaultLayout (layout : Option String)

/-- The catalog after an operation, whether the operation succeeds or not. -/
def Operation.apply (r : Catalog) : Operation → Catalog
  | insert name source =>
    match r.insert name source with
    | .ok (r', _) => r'
    | .error _ => r
  | remove name => r.remove name
  | insertAll assets => (r.insertAll assets).1
  | loadDirectory disk directory extension => (r.loadDirectory disk directory extension).1
  | configure disk settings => (r.configure disk settings).1
  | setDefaultLayout layout => r.setDefaultLayout layout

/-- The catalog after a sequence of operations, from the catalog without templates on. -/
def Catalog.run (ops : List Operation) : Catalog :=
  ops.foldl Operation.apply .empty

/-! ### Offers -/

/-- The sources of assets. -/
def assetOffers (assets : List (String × String)) : List (String × Source) :=
  assets.map fun a => (a.1, .ok a.2)

/-- The sources in the template files of a directory. A directory that is missing is a fault in
their place. -/
def Disk.offers (disk : Disk) (directory extension : String) : List (String × Source) :=
  match disk.directory? directory with
  | none => [(directory, .error (.directoryNotFound directory))]
  | some tree => (disk.walk tree).templateSources directory extension

/-- The sources that settings name: those of the assets, then those of the directory. -/
def Settings.offers (s : Settings) (disk : Disk) : List (String × Source) :=
  assetOffers (s.assets.getD []) ++
    (s.directory.map fun directory => disk.offers directory s.extension).getD []

/-- The sources that an operation offers to the catalog. -/
def Operation.offers : Operation → List (String × Source)
  | insert name source => [(name, .ok source)]
  | insertAll assets => assetOffers assets
  | loadDirectory disk directory extension => disk.offers directory extension
  | configure disk settings => settings.offers disk
  | _ => []

/-- The sources that are attempted when some are offered: all of them up to the first one that has a
fault or cannot be read. The one with a fault is attempted, too. -/
def attempts : List (String × Source) → List (String × String)
  | (name, .ok source) :: sources =>
    match Body.ofSource source with
    | .ok _ => (name, source) :: attempts sources
    | .error _ => [(name, source)]
  | _ => []

theorem attempts_cons_of_ok {source : String} {ns : Body} (h : Body.ofSource source = .ok ns)
    (name : String) (sources : List (String × Source)) :
    attempts ((name, .ok source) :: sources) = (name, source) :: attempts sources := by
  rw [attempts, h]

theorem attempts_cons_of_error {source : String} {fault : Fault}
    (h : Body.ofSource source = .error fault) (name : String) (sources : List (String × Source)) :
    attempts ((name, .ok source) :: sources) = [(name, source)] := by
  rw [attempts, h]

/-- The sources that an operation attempts to publish. -/
def Operation.attempts (op : Operation) : List (String × String) :=
  Stencil.attempts op.offers

namespace Catalog

/-! ### Operations one by one -/

theorem run_append (ops ops' : List Operation) :
    run (ops ++ ops') = ops'.foldl Operation.apply (run ops) :=
  List.foldl_append

section

variable {r : Catalog} {name source : String}

theorem apply_insert_of_ok {q : Catalog × Published} (h : r.insert name source = .ok q) :
    (Operation.insert name source).apply r = q.1 := by
  rw [Operation.apply, h]

theorem apply_insert_of_error {fault : Fault} (h : r.insert name source = .error fault) :
    (Operation.insert name source).apply r = r := by
  rw [Operation.apply, h]

end

/-! ### Loading one list of sources behind another -/

variable {r r' : Catalog} {name : String} {source : Source} {sources : List (String × Source)}

theorem insertEach_cons_of_error {fault : Fault} (h : source.bind (r.insert name) = .error fault) :
    r.insertEach ((name, source) :: sources) = (r, .error fault) := by
  rw [insertEach, h]

theorem insertEach_cons_of_ok {p : Published} (h : source.bind (r.insert name) = .ok (r', p)) :
    r.insertEach ((name, source) :: sources) =
      ((r'.insertEach sources).1, (r'.insertEach sources).2.map (· + 1)) := by
  rw [insertEach, h]

/-- A fault in the first list ends the loading. -/
theorem insertEach_append_of_error {fault : Fault} (h : (r.insertEach sources).2 = .error fault)
    (behind : List (String × Source)) :
    r.insertEach (sources ++ behind) = ((r.insertEach sources).1, .error fault) := by
  induction sources generalizing r with
  | nil => cases h
  | cons entry sources ih =>
    obtain ⟨name, source⟩ := entry
    rw [List.cons_append]
    cases hs : source.bind (r.insert name) with
    | error e =>
      rw [insertEach_cons_of_error hs] at h ⊢
      rw [insertEach_cons_of_error hs, ← h]
    | ok q =>
      obtain ⟨r', p⟩ := q
      rw [insertEach_cons_of_ok hs] at h ⊢
      rw [insertEach_cons_of_ok hs]
      cases hr : (r'.insertEach sources).2 with
      | ok n => rw [hr] at h; cases h
      | error e =>
        rw [hr] at h
        cases h
        rw [ih hr]
        rfl

/-- Without a fault in the first list the second one is loaded behind it. -/
theorem insertEach_append_of_ok {n : Nat} (h : (r.insertEach sources).2 = .ok n)
    (behind : List (String × Source)) :
    r.insertEach (sources ++ behind) = (((r.insertEach sources).1.insertEach behind).1,
      ((r.insertEach sources).1.insertEach behind).2.map (n + ·)) := by
  induction sources generalizing r n with
  | nil =>
    cases h
    cases hb : (r.insertEach behind).2 <;> simp [insertEach, Prod.ext_iff, hb, Except.map]
  | cons entry sources ih =>
    obtain ⟨name, source⟩ := entry
    rw [List.cons_append]
    cases hs : source.bind (r.insert name) with
    | error e => rw [insertEach_cons_of_error hs] at h; cases h
    | ok q =>
      obtain ⟨r', p⟩ := q
      rw [insertEach_cons_of_ok hs] at h ⊢
      rw [insertEach_cons_of_ok hs]
      cases hr : (r'.insertEach sources).2 with
      | error e => rw [hr] at h; cases h
      | ok k =>
        rw [hr] at h
        cases h
        rw [ih hr]
        cases ((r'.insertEach sources).1.insertEach behind).2 with
        | error e => rfl
        | ok m => simp [Except.map, Nat.add_right_comm]

/-! ### Loads insert what they are offered -/

theorem insertAll_eq_insertEach (r : Catalog) (assets : List (String × String)) :
    r.insertAll assets = r.insertEach (assetOffers assets) := rfl

theorem loadDirectory_eq_insertEach (r : Catalog) (disk : Disk) (directory extension : String) :
    r.loadDirectory disk directory extension = r.insertEach (disk.offers directory extension) := by
  rw [loadDirectory, Disk.offers]
  cases disk.directory? directory <;> rfl

theorem loadDirectory?_eq_insertEach (r : Catalog) (disk : Disk) (directory : Option String)
    (extension : String) :
    r.loadDirectory? disk directory extension =
      r.insertEach ((directory.map fun d => disk.offers d extension).getD []) := by
  cases directory with
  | none => rfl
  | some directory => exact loadDirectory_eq_insertEach r disk directory extension

/-- Configuring inserts what the settings name, and sets the default layout when there was no
fault. -/
theorem configure_eq_insertEach (r : Catalog) (disk : Disk) (settings : Settings) :
    r.configure disk settings =
      match (r.insertEach (settings.offers disk)).2 with
      | .error fault => ((r.insertEach (settings.offers disk)).1, .error fault)
      | .ok n => ((r.insertEach (settings.offers disk)).1.setLayout? settings.layout, .ok n) := by
  rw [configure, insertAll_eq_insertEach]
  cases ha : (r.insertEach (assetOffers (settings.assets.getD []))).2 with
  | error fault =>
    rw [Settings.offers, insertEach_append_of_error ha]
    simp only [ha]
  | ok n =>
    rw [Settings.offers, insertEach_append_of_ok ha]
    simp only [ha, loadDirectory?_eq_insertEach]
    cases ((r.insertEach (assetOffers (settings.assets.getD []))).1.insertEach
      ((settings.directory.map fun d => disk.offers d settings.extension).getD [])).2 <;> rfl

/-- Apart from removing, an operation publishes what it is offered and leaves all else in place. -/
theorem templates_apply {op : Operation} (hop : ∀ name, op ≠ .remove name) (r : Catalog) :
    (op.apply r).templates = (r.insertEach op.offers).1.templates := by
  cases op with
  | insert other source =>
    have hoffer : (.ok source : Source).bind (r.insert other) = r.insert other source := rfl
    rw [Operation.apply, Operation.offers]
    cases h : r.insert other source with
    | error fault => rw [insertEach_cons_of_error (hoffer.trans h)]
    | ok q => rw [insertEach_cons_of_ok (hoffer.trans h), insertEach]
  | remove other => exact absurd rfl (hop other)
  | insertAll assets => rfl
  | loadDirectory disk directory extension =>
    rw [Operation.apply, Operation.offers, loadDirectory_eq_insertEach]
  | configure disk settings =>
    rw [Operation.apply, Operation.offers, configure_eq_insertEach]
    cases (r.insertEach (settings.offers disk)).2 with
    | error fault => rfl
    | ok n => cases hlayout : settings.layout <;> rfl
  | setDefaultLayout layout => rfl

theorem get?_apply {op : Operation} (hop : ∀ name, op ≠ .remove name) (r : Catalog)
    (name : String) : (op.apply r).get? name = (r.insertEach op.offers).1.get? name := by
  rw [get?, templates_apply hop, get?]

end Catalog

end Stencil
