/-!
# Nodes of a template

A parsed template is a body: a list of nodes in the order of the source. Blocks hold bodies of their
own, so bodies form a tree.

## Main definitions

* `Stencil.Node`, `Stencil.Branch`, `Stencil.Body`.
* `Stencil.Branch.ofCondition`: a branch whose body is still empty.
-/

namespace Stencil

mutual

/-- A piece of a template. -/
inductive Node where
  /-- Text that is copied to the output. -/
  | text (s : String)
  /-- A path whose value is shown in the output. -/
  | expression (path : String)
  /-- The first branch whose condition is true, or else the alternative. -/
  | conditional (branches : List Branch) (alternative : Option (List Node))
  /-- The body once for every item of the collection, with the item bound to the name. -/
  | loop (name collection : String) (body : List Node)

/-- A body with the condition under which it is used. -/
structure Branch where
  condition : String
  body : List Node

end

/-- The content of a template, a branch, an alternative or a loop. -/
abbrev Body := List Node

/-- A branch whose body is still empty. -/
def Branch.ofCondition (condition : String) : Branch :=
  ⟨condition, []⟩

end Stencil
