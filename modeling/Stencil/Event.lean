/-!
# Events of a template

The statements of a template, its texts and its expressions are a sequence of events, each of which
adds to the tree of nodes: it appends a leaf, opens a block, closes the innermost one, or opens the
block that was closed last once more.

## Main definitions

* `Stencil.Event`: the events.
-/

namespace Stencil

/-- What a complete statement, a text or an expression does to the tree. -/
inductive Event where
  | text (s : String)
  | expression (path : String)
  /-- `if condition {` -/
  | openIf (condition : String)
  /-- `for name in collection {` -/
  | openFor (name collection : String)
  /-- `}` -/
  | close
  /-- `else if condition {` after the end of a block. -/
  | elseIf (condition : String)
  /-- `else {` after the end of a block. -/
  | otherwise
  deriving DecidableEq, Repr

end Stencil
