import Stencil.Event.Header
import Stencil.Item

/-!
# Reading items as events

Items are read from left to right. Between statements every text and expression is an event. Inside
a header, blank text between the tags is skipped and only tokens may follow. After a `}`, blank text
is held back: it is dropped when `else` comes next and is content otherwise.

## Main definitions

* `Stencil.Reader`: where in the sequence of statements the reading stands.
* `Stencil.Reader.statement`: the beginning of a statement.
* `Stencil.Reader.step`: the position after one more item, with the events that are now complete.
* `Stencil.Reader.finish`: the events that are complete at the end of the items.
-/

namespace Stencil

/-- Where in the sequence of statements the reading stands. -/
inductive Reader where
  /-- Between statements. -/
  | content
  /-- After a `}` and the blank texts that are held back. -/
  | closed (blanks : List String)
  /-- Inside a header. -/
  | header (h : Header)
  deriving DecidableEq, Repr

namespace Reader

/-- A token at the beginning of a statement. -/
def statement : Token → Except StatementFault (Reader × List Event)
  | .keyword .ifWord => .ok (header (.condition .first), [])
  | .keyword .forWord => .ok (header .loopVariable, [])
  | .keyword .elseWord => .error .strayElse
  | .rightBrace => .ok (closed [], [.close])
  | t => .error (.unexpected t)

/-- An item between statements. -/
def between : Item → Except StatementFault (Reader × List Event)
  | .text s => .ok (content, [.text s])
  | .expression path => .ok (content, [.expression (Text.trim path)])
  | .token t => statement t

/-- An item inside a header. -/
def within (h : Header) : Item → Except StatementFault (Reader × List Event)
  | .text s =>
    if Text.isBlankText s then .ok (header h, [])
    else .error (.expected h.expectation (.text s))
  | .expression path => .error (.expected h.expectation (.expression path))
  | .token t =>
    (h.step t).map fun
      | .inl h' => (header h', [])
      | .inr e => (content, [e])

/-- An item after a `}` and blank texts. -/
def after (blanks : List String) : Item → Except StatementFault (Reader × List Event)
  | .token (.keyword .elseWord) => .ok (header .alternative, [])
  | .text s =>
    if Text.isBlankText s then .ok (closed (blanks ++ [s]), [])
    else .ok (content, blanks.map .text ++ [.text s])
  | item => (between item).map fun p => (p.1, blanks.map .text ++ p.2)

/-- The position after one more item, with the events that are now complete. -/
def step : Reader → Item → Except StatementFault (Reader × List Event)
  | content, item => between item
  | closed blanks, item => after blanks item
  | header h, item => within h item

/-- The events that are complete at the end of the items. -/
def finish : Reader → Except StatementFault (List Event)
  | content => .ok []
  | closed blanks => .ok (blanks.map .text)
  | header h => .error (.expected h.expectation .endOfTemplate)

end Reader

end Stencil
