import Stencil.Segment
import Stencil.Text.Trim

/-!
# Items of a template

The parser reads one sequence of items: texts and expressions as they stand in the source, and the
tokens of all code tags one after the other, so that a statement may go on in the next tag.

## Main definitions

* `Stencil.Item`: a text, an expression or a token.
* `Stencil.Item.ofSegment`, `Stencil.Item.ofSource`: the items of a segment and of a source.
* `Stencil.Item.isBlank`: blank texts, which may stand between the tags of one statement.
-/

namespace Stencil

/-- What the parser reads. -/
inductive Item where
  | text (s : String)
  /-- The content of an expression tag. -/
  | expression (content : String)
  | token (t : Token)
  deriving DecidableEq, Repr

namespace Item

/-- Whether an item is a text that is blank. -/
def isBlank : Item → Bool
  | text s => Text.isBlankText s
  | _ => false

/-- The items of a segment. -/
def ofSegment : Segment → List Item
  | .text s => [text s]
  | .expression content => [expression content]
  | .code content => (Token.ofCode content).map token

/-- The items of a source. -/
def ofSource (source : String) : Except Fault (List Item) := do
  let segments ← Segment.ofSource source
  return segments.flatMap ofSegment

end Item

end Stencil
