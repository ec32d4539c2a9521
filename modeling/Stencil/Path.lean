import Stencil.Text.Split

/-!
# Paths

A path is a text of components with slashes between them. Only its spelling counts here: slashes in
a row are one, `.` is dropped except at the beginning, and `..` stays. A path that starts with a
slash is absolute, and the slash is a component of it.

A template file is named after its path below some base: the components from there on, without the
extension of the last one.

## Main definitions

* `Stencil.Path.Component`, `Stencil.Path.components`.
* `Stencil.Path.isTooLong`, `Stencil.Path.isLongName`: paths and names with too many bytes.
* `Stencil.Path.join`: a path continued by another one.
* `Stencil.Path.splitExtension`, `Stencil.Path.extension?`: the parts of a file name.
* `Stencil.Path.below?`: the components of a path below a base.
* `Stencil.Path.templateName?`: the name of a template file below a base.
* `Stencil.Path.literalPart`: a pattern up to its first wildcard.
-/

namespace Stencil.Path

/-! ### Components -/

/-- A component of a path. -/
inductive Component where
  /-- The slash at the beginning. -/
  | root
  /-- `.` at the beginning. -/
  | current
  /-- `..` -/
  | parent
  | normal (name : String)
  deriving DecidableEq, Repr

/-- The text of a component. -/
def Component.text : Component → String
  | root => "/"
  | current => "."
  | parent => ".."
  | normal name => name

/-- The component that a name inside a path is, if it counts. -/
def Component.ofName? (name : String) : Option Component :=
  if name = "" ∨ name = "." then none
  else if name = ".." then some parent
  else some (normal name)

/-- What stands at the beginning of a path, given the names between its slashes. -/
def leading : List String → List Component
  | "" :: _ :: _ => [.root]
  | "." :: _ => [.current]
  | _ => []

/-- The components of a path. -/
def components (path : String) : List Component :=
  let names := Text.split '/' path
  leading names ++ names.filterMap Component.ofName?

/-- Whether a path starts at the root. -/
def isAbsolute (path : String) : Bool :=
  path.toList.head? == some '/'

/-! ### Lengths -/

/-- Whether a path has too many bytes to lead anywhere. -/
def isTooLong (path : String) : Bool :=
  4096 ≤ path.utf8ByteSize

/-- Whether a name has too many bytes for an entry of a directory. -/
def isLongName (name : String) : Bool :=
  255 < name.utf8ByteSize

/-! ### Joining -/

/-- A path continued by another one, which takes its place if it is absolute. -/
def join (base path : String) : String :=
  if isAbsolute path then path
  else if base = "" ∨ base.toList.getLast? = some '/' then base ++ path
  else base ++ "/" ++ path

/-! ### File names -/

/-- A file name up to its last dot, and what follows that dot. A name without a dot, or with its
only dot at the beginning, has no extension. -/
def splitExtension (name : String) : String × Option String :=
  let reversed := name.toList.reverse
  match reversed.dropWhile (· ≠ '.') with
  | [] => (name, none)
  | [_] => (name, none)
  | _ :: stem =>
    (String.ofList stem.reverse, some (String.ofList (reversed.takeWhile (· ≠ '.')).reverse))

/-- The extension of the last component of a path, if that is a file name. -/
def extension? (path : String) : Option String :=
  match (components path).getLast? with
  | some (.normal name) => (splitExtension name).2
  | _ => none

/-- The text of the last component of a path without its extension. The name `..ext`, whose stem
would be the component `.`, keeps both dots. -/
def stem : Component → String
  | .normal name =>
    match splitExtension name with
    | (".", some _) => ".."
    | (stem, _) => stem
  | c => c.text

/-! ### Names of template files -/

/-- What is left of a list after another one at its beginning. -/
def dropLeading? {α : Type} [DecidableEq α] : List α → List α → Option (List α)
  | [], rest => some rest
  | _ :: _, [] => none
  | x :: xs, y :: ys => if x = y then dropLeading? xs ys else none

/-- The components of a path below a base. -/
def below? (base path : String) : Option (List Component) :=
  dropLeading? (components base) (components path)

/-- The texts of components, the last one without its extension. -/
def nameParts : List Component → List String
  | [] => []
  | [c] => [stem c]
  | c :: cs => c.text :: nameParts cs

/-- The name of a template file below a base: its components with slashes between them, without the
extension. -/
def templateName? (base path : String) : Option String :=
  (below? base path).map fun cs => String.intercalate "/" (nameParts cs)

/-! ### Patterns -/

/-- Whether a character of a pattern stands for other characters. -/
def isWildcard (c : Char) : Bool :=
  c == '*' || c == '?' || c == '[' || c == '{'

/-- Whether a component holds no wildcard. -/
def Component.isLiteral (c : Component) : Bool :=
  !c.text.toList.any isWildcard

/-- The path with the given components. -/
def ofComponents (cs : List Component) : String :=
  cs.foldl (fun path c => join path c.text) ""

/-- A pattern up to its first component with a wildcard. -/
def literalPart (pattern : String) : String :=
  ofComponents ((components pattern).takeWhile Component.isLiteral)

/-! ### Laws -/

theorem dropLeading?_eq_some_iff {α : Type} [DecidableEq α] {xs ys rest : List α} :
    dropLeading? xs ys = some rest ↔ ys = xs ++ rest := by
  induction xs generalizing ys with
  | nil => simp [dropLeading?, eq_comm]
  | cons x xs ih =>
    cases ys with
    | nil => simp [dropLeading?]
    | cons y ys =>
      rw [dropLeading?]
      split
      · rename_i h
        simp [h, ih]
      · rename_i h
        simp [Ne.symm h]

theorem below?_eq_some_iff {base path : String} {rest : List Component} :
    below? base path = some rest ↔ components path = components base ++ rest :=
  dropLeading?_eq_some_iff

end Stencil.Path
