import Stencil.Catalog.Load
import Stencil.Proofs.Path.Join

/-!
# Paths below a directory

The files of a directory tree have paths below the directory: its own path, continued by the names
that lead to the file. However the directory is spelled, such a path has the components of the
directory and behind them one component for every name. So the extension of the path is that of the
last name, and the name of the template is made from the names alone.

## Main definitions

* `Stencil.FileTree.lastExtension?`, `Stencil.FileTree.templateName`: the extension and the template
  name of a file, made from the names that lead to it.

## Main results

* `Stencil.Path.components_join`: a path continued by one name.
* `Stencil.FileTree.components_pathBelow`: a path continued by several names.
* `Stencil.FileTree.extension?_pathBelow`, `Stencil.FileTree.templateName?_pathBelow`: the extension
  and the template name of such a path.
-/

namespace Stencil

namespace Path

variable {name : String}

/-- A path continued by a name has one more component, however its end is spelled. -/
theorem components_join (h : IsOrdinary name) (base : String) :
    components (join base name) = components base ++ [.normal name] := by
  have hinner : ∀ c ∈ components name, c.isInner = true := by
    rw [h.components]
    simp [Component.isInner]
  rw [components_join_of_isInner hinner base, h.components]

end Path

/-! ### Continuing a path by several names -/

namespace FileTree

variable {names : List String}

theorem components_pathBelow (h : ∀ name ∈ names, Path.IsOrdinary name) (directory : String) :
    Path.components (pathBelow directory names) =
      Path.components directory ++ names.map .normal := by
  rw [pathBelow]
  induction names generalizing directory with
  | nil => simp
  | cons name names ih =>
    obtain ⟨hname, hnames⟩ := List.forall_mem_cons.1 h
    rw [List.foldl_cons, ih hnames, Path.components_join hname]
    simp

/-- The extension of the last of the names that lead to a file. -/
def lastExtension? (names : List String) : Option String :=
  names.getLast?.bind fun name => (Path.splitExtension name).2

/-- The extension of a path below a directory is that of its last name. -/
theorem extension?_pathBelow (h : ∀ name ∈ names, Path.IsOrdinary name) (hnames : names ≠ [])
    (directory : String) :
    Path.extension? (pathBelow directory names) = lastExtension? names := by
  obtain ⟨front, name, rfl⟩ := List.eq_nil_or_concat names |>.resolve_left hnames
  rw [Path.extension?, components_pathBelow h]
  simp [lastExtension?]

/-- The name of a template file: the names that lead to it, with slashes between them, without the
extension of the last one. -/
def templateName (names : List String) : String :=
  String.intercalate "/" (Path.nameParts (names.map .normal))

/-- A file below a directory is named by the names that lead to it, however the directory is
spelled. -/
theorem templateName?_pathBelow (h : ∀ name ∈ names, Path.IsOrdinary name) (directory : String) :
    Path.templateName? directory (pathBelow directory names) = some (templateName names) := by
  have hbelow := Path.below?_eq_some_iff.2 (components_pathBelow h directory)
  rw [Path.templateName?, hbelow]
  rfl

end FileTree

end Stencil
