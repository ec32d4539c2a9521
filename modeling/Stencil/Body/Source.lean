import Stencil.Draft
import Stencil.Event.Reader

/-!
# Reading a body

A body is read item by item: the reader turns items into events, and the draft grows by every event
as soon as it is complete, so the first fault from the left is the one reported. At the end a
statement must be complete and all blocks closed.

## Main definitions

* `Stencil.Progress`, `Stencil.Progress.step`: a reading under way.
* `Stencil.Body.ofItems`, `Stencil.Body.ofSource`: the body of a sequence of items and of a source.
-/

namespace Stencil

/-- A reading under way. -/
structure Progress where
  reader : Reader
  draft : Draft

namespace Progress

/-- Nothing has been read. -/
def start : Progress := ⟨.content, .empty⟩

/-- One more item is read. -/
def step (p : Progress) (item : Item) : Except Fault Progress := do
  let (reader, events) ← (p.reader.step item).mapError .statement
  let draft ← p.draft.applyAll events
  return ⟨reader, draft⟩

/-- The tree after the last item. -/
def finish (p : Progress) : Except Fault Body := do
  let events ← p.reader.finish.mapError .statement
  let draft ← p.draft.applyAll events
  draft.finish

end Progress

namespace Body

/-- The body that a sequence of items describes. -/
def ofItems (items : List Item) : Except Fault Body := do
  let p ← items.foldlM Progress.step Progress.start
  p.finish

/-- The body of a template source. -/
def ofSource (source : String) : Except Fault Body := do
  let items ← Item.ofSource source
  ofItems items

end Body

end Stencil
