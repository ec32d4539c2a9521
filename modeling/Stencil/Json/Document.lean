import Stencil.Json.Symbol

/-!
# Documents

A document is one value: a scalar, a list of values or a map from texts to values. Its symbols are
read one at a time. Open lists and maps are kept on a stack, the innermost first, of which there may
be at most 127.

## Main definitions

* `Stencil.Json.Level`: a list or map that is still open.
* `Stencil.Json.Reading`, `Stencil.Json.Reading.step`: a document that is being read.
* `Stencil.Json.parse?`: the datum of a document.
-/

namespace Stencil.Json

/-- A list or map that is still open, its content in reverse order. -/
inductive Level where
  | list (items : List Datum)
  /-- A map with the key whose value is being read. -/
  | map (entries : List (Datum × Datum)) (key : String)

/-- How many lists and maps may be open at once. -/
def deepestNesting : Nat := 127

/-- What a document is about to give. -/
inductive Reading where
  /-- A value, or the end of a list that has just been opened. -/
  | value (outer : List Level) (mayClose : Bool)
  /-- A key, or the end of a map that has just been opened. -/
  | key (entries : List (Datum × Datum)) (outer : List Level) (mayClose : Bool)
  /-- The colon after a key. -/
  | colon (entries : List (Datum × Datum)) (key : String) (outer : List Level)
  /-- What follows a complete value. -/
  | complete (d : Datum) (outer : List Level)

/-- The map with entries in reverse order. -/
def mapOfReversed (entries : List (Datum × Datum)) : Datum :=
  .ofEntries entries.reverse

namespace Reading

/-- The position at the beginning of a document. -/
def start : Reading := value [] false

/-- The position after an opening symbol, if not too many levels are open. -/
def enter (outer : List Level) (inside : Reading) : Option Reading :=
  if outer.length < deepestNesting then some inside else none

/-- The position after one more symbol. -/
def step : Reading → Symbol → Option Reading
  | value outer _, .scalar d => some (complete d outer)
  | value outer _, .text s => some (complete (.str s) outer)
  | value outer _, .openList => enter outer (value (.list [] :: outer) true)
  | value outer _, .openMap => enter outer (key [] outer true)
  | value (.list items :: outer) true, .closeList => some (complete (.seq items.reverse) outer)
  | key entries outer _, .text s => some (colon entries s outer)
  | key entries outer true, .closeMap => some (complete (mapOfReversed entries) outer)
  | colon entries k outer, .colon => some (value (.map entries k :: outer) false)
  | complete d (.list items :: outer), .comma => some (value (.list (d :: items) :: outer) false)
  | complete d (.list items :: outer), .closeList =>
    some (complete (.seq (d :: items).reverse) outer)
  | complete d (.map entries k :: outer), .comma =>
    some (key ((.str k, d) :: entries) outer false)
  | complete d (.map entries k :: outer), .closeMap =>
    some (complete (mapOfReversed ((.str k, d) :: entries)) outer)
  | _, _ => none

/-- The value of a document that has been read to its end. -/
def finish : Reading → Option Datum
  | complete d [] => some d
  | _ => none

end Reading

/-- The datum of a document, if it is well formed. -/
def parse? (document : String) : Option Datum := do
  let symbols ← symbols? document.toList
  let reading ← symbols.foldlM Reading.step Reading.start
  reading.finish

end Stencil.Json
