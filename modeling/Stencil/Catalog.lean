import Stencil.Template

/-!
# Catalogs of templates

A catalog publishes templates by name. Inserting a source publishes its template; a source with the
digest of the one that is published already leaves it in place, and a source with a fault does too.
A published template carries a stamp, which no other template of the catalog has had: two moments
at which a name has the same stamp are moments of one and the same template.

A page can be rendered with a layout. The layout is a template that sees the context of the page,
and in front of it the output of the page under the name `yield`.

## Main definitions

* `Stencil.Published`, `Stencil.Catalog`.
* `Stencil.Catalog.insert`, `Stencil.Catalog.remove`, `Stencil.Catalog.get?`,
  `Stencil.Catalog.names`.
* `Stencil.Catalog.render`, `Stencil.Catalog.renderDefault`.

## Main results

* `Stencil.Catalog.get?_publish`, `Stencil.Catalog.get?_remove`: an operation on one name leaves the
  others alone.
* `Stencil.Catalog.mem_names_iff`: the names are those that have a template.
-/

namespace Stencil

/-- A template under its stamp. -/
structure Published where
  template : Template
  /-- The number of templates that the catalog had published before. -/
  stamp : Nat

/-- Published templates by name, and the layout of pages that ask for none. -/
structure Catalog where
  templates : Dictionary Published
  defaultLayout : Option String
  /-- The stamp of the next template. -/
  nextStamp : Nat

namespace Catalog

/-- The catalog without templates. -/
def empty : Catalog := ⟨[], none, 0⟩

/-! ### Publishing -/

/-- The published template of a name. -/
def get? (r : Catalog) (name : String) : Option Published :=
  Dictionary.find? name r.templates

/-- Publishes a template that has just been read. -/
def publish (r : Catalog) (t : Template) : Catalog × Published :=
  let p : Published := ⟨t, r.nextStamp⟩
  ({ r with templates := Dictionary.insert t.name p r.templates, nextStamp := r.nextStamp + 1 }, p)

/-- The published template of a name, if it was read from a source with this digest. -/
def current? (r : Catalog) (name : String) (digest : Text.Digest) : Option Published :=
  (r.get? name).filter fun p => p.template.digest = digest

/-- Publishes the template of a source. An unchanged source keeps the template that is published. -/
def insert (r : Catalog) (name source : String) : Except Fault (Catalog × Published) :=
  match r.current? name (Text.digest source) with
  | some p => .ok (r, p)
  | none => (Template.ofSource name source).map r.publish

/-- Takes a name out. -/
def remove (r : Catalog) (name : String) : Catalog :=
  { r with templates := Dictionary.erase name r.templates }

/-- Sets or clears the layout of pages that ask for none. -/
def setDefaultLayout (r : Catalog) (layout : Option String) : Catalog :=
  { r with defaultLayout := layout }

/-! ### What is published -/

/-- A published template is the one of its name; the other names keep theirs. -/
theorem get?_publish (r : Catalog) (t : Template) (name : String) :
    (r.publish t).1.get? name =
      if t.name = name then some (r.publish t).2 else r.get? name :=
  Dictionary.find?_insert ..

/-- A name that is taken out has no template; the other names keep theirs. -/
theorem get?_remove (r : Catalog) (name other : String) :
    (r.remove name).get? other = if name = other then none else r.get? other :=
  Dictionary.find?_erase ..

/-! ### Listing -/

/-- Whether a name has a template. -/
def contains (r : Catalog) (name : String) : Bool :=
  Dictionary.contains r.templates name

/-- The names of all templates. Nothing is sorted here: the names stand in the order of the
dictionary, and every operation keeps that ascending (`Stencil.Catalog.ascending_run`). -/
def names (r : Catalog) : List String :=
  Dictionary.keys r.templates

theorem mem_names_iff {r : Catalog} {name : String} :
    name ∈ r.names ↔ ∃ p, r.get? name = some p := by
  rw [names, ← Dictionary.find?_isSome_iff, Option.isSome_iff_exists]
  rfl

/-- How many templates there are. -/
def size (r : Catalog) : Nat :=
  r.templates.length

/-- Whether there are no templates. -/
def isEmpty (r : Catalog) : Bool :=
  r.templates.isEmpty

/-! ### Rendering -/

/-- The name of the output of a page while its layout is rendered. -/
def yieldName : String := "yield"

/-- The template of a name that is needed. -/
def lookup (r : Catalog) (name : String) : Except Fault Template :=
  match r.get? name with
  | some p => .ok p.template
  | none => .error (.templateNotFound name)

/-- The output of a page, in a layout if one is given. Page and layout are looked up before the
context is read. -/
def render (r : Catalog) (name : String) (context : Option Datum) (layout : Option String) :
    Except Fault String := do
  let page ← r.lookup name
  let layout ← layout.mapM r.lookup
  let root ← contextValue context
  let scope := Scope.ofRoot root
  let output ← page.renderIn scope
  match layout with
  | none => return output
  | some l => l.renderIn (scope.bind yieldName (.str output))

/-- The output of a page in the default layout. -/
def renderDefault (r : Catalog) (name : String) (context : Option Datum) : Except Fault String :=
  r.render name context r.defaultLayout

end Catalog

end Stencil
