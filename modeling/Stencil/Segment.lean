import Stencil.Fault

/-!
# Segments of a template source

A source is text with tags in it. A tag starts at `<%` and ends at `%>`; when its content starts
with `=` it is an expression, and otherwise it is code. Whatever is not in a tag is text. Tags may
be empty, text segments are not.

The source is read once, from left to right. A `<` in text and a `%` in a tag may be the first half
of a mark, so they are held until the next character has been seen, and become content when it is
not the second half. A source that ends inside a tag has no segments.

## Main definitions

* `Stencil.Segment`: a stretch of text or the content of a tag.
* `Stencil.Segment.Scan`, `Stencil.Segment.Scan.step`: a reading under way.
* `Stencil.Segment.ofChars`, `Stencil.Segment.ofSource`: the segments of a source.
* `Stencil.Segment.chars`: the characters that a segment is written with.
-/

namespace Stencil

/-- A stretch of text, or the content of a tag. -/
inductive Segment where
  | text (s : String)
  /-- The content between `<%=` and `%>`. -/
  | expression (content : String)
  /-- The content between `<%` and `%>`. -/
  | code (content : String)
  deriving DecidableEq, Repr

namespace Segment

/-! ### Reading -/

/-- The two sorts of tags. -/
inductive TagKind where
  /-- `<%` -/
  | code
  /-- `<%=` -/
  | expression
  deriving DecidableEq, Repr

/-- The tag of a sort with the given content. -/
def TagKind.segment : TagKind → String → Segment
  | code, content => .code content
  | expression, content => .expression content

/-- Where in a source the reading stands. -/
inductive Place where
  /-- In text. -/
  | text
  /-- In text, behind a `<` that may open a tag. -/
  | opening
  /-- Right behind `<%`. -/
  | opened
  /-- In a tag. -/
  | tag (kind : TagKind)
  /-- In a tag, behind a `%` that may close it. -/
  | closing (kind : TagKind)
  deriving DecidableEq, Repr

/-- A reading of a source under way. -/
structure Scan where
  /-- The segments that are complete, the last one first. -/
  segments : List Segment
  /-- The content of the segment that is not complete. A character that is held is not part of
  it. -/
  buffer : String
  place : Place
  deriving DecidableEq, Repr

namespace Scan

/-- Nothing has been read. -/
def start : Scan := ⟨[], "", .text⟩

/-- One more character of content. -/
def push (σ : Scan) (c : Char) : Scan :=
  { σ with buffer := σ.buffer.push c }

/-- The reading at another place. -/
def goTo (σ : Scan) (place : Place) : Scan :=
  { σ with place := place }

/-- The text that has been read is complete. It is no segment when it is empty. -/
def flushText (σ : Scan) : Scan :=
  if σ.buffer = "" then σ
  else { σ with segments := .text σ.buffer :: σ.segments, buffer := "" }

/-- The tag that has been read is complete. -/
def closeTag (σ : Scan) (kind : TagKind) : Scan :=
  ⟨kind.segment σ.buffer :: σ.segments, "", .text⟩

/-- The reading after one more character. -/
def step (σ : Scan) (c : Char) : Scan :=
  match σ.place with
  | .text => if c = '<' then σ.goTo .opening else σ.push c
  | .opening =>
    if c = '%' then σ.flushText.goTo .opened
    else if c = '<' then σ.push '<'
    else ((σ.push '<').push c).goTo .text
  | .opened =>
    if c = '=' then σ.goTo (.tag .expression)
    else if c = '%' then σ.goTo (.closing .code)
    else (σ.push c).goTo (.tag .code)
  | .tag kind => if c = '%' then σ.goTo (.closing kind) else σ.push c
  | .closing kind =>
    if c = '>' then σ.closeTag kind
    else if c = '%' then σ.push '%'
    else ((σ.push '%').push c).goTo (.tag kind)

/-- The segments at the end of the source. A `<` that is held is text. -/
def finish (σ : Scan) : Except Fault (List Segment) :=
  match σ.place with
  | .text => .ok σ.flushText.segments.reverse
  | .opening => .ok (σ.push '<').flushText.segments.reverse
  | _ => .error .unclosedTag

end Scan

/-- The segments of a source. -/
def ofChars (s : List Char) : Except Fault (List Segment) :=
  (s.foldl Scan.step Scan.start).finish

/-- The segments of a source. -/
def ofSource (source : String) : Except Fault (List Segment) :=
  ofChars source.toList

/-! ### Writing -/

/-- The characters that a segment is written with. -/
def chars : Segment → List Char
  | text s => s.toList
  | expression content => '<' :: '%' :: '=' :: content.toList ++ ['%', '>']
  | code content => '<' :: '%' :: content.toList ++ ['%', '>']

end Segment

end Stencil
