import Stencil.Decimal.Positional
import Stencil.Dictionary
import Stencil.Text.Brace

/-!
# Values

A template is rendered against a value: a tree of scalars, lists and maps. Maps are dictionaries, so
they are shown in ascending order of their names whatever the order in which they were filled.

## Main definitions

* `Stencil.Value`: the tree.
* `Stencil.Kind`, `Stencil.Value.kind`: what sort of value it is, for messages.
* `Stencil.Value.text`: how a value is shown in the output.
* `Stencil.Value.entries`: the entries of a map, and none of any other value.
-/

namespace Stencil

/-- The values that a template sees. -/
inductive Value where
  | null
  | bool (b : Bool)
  /-- An integer that was given with a sign. -/
  | int (n : Int)
  /-- An integer that was given without a sign. -/
  | nat (n : Nat)
  | float (x : Decimal.Binary64)
  | str (s : String)
  | list (items : List Value)
  | map (entries : List (String × Value))
  deriving Inhabited

/-- The sorts of values that messages tell apart. Integers with and without a sign are one sort. -/
inductive Kind where
  | null
  | boolean
  | integer
  | float
  | string
  | list
  | map
  deriving DecidableEq, Repr

/-- The word for a sort of values. -/
def Kind.name : Kind → String
  | null => "null"
  | boolean => "boolean"
  | integer => "integer"
  | float => "float"
  | string => "string"
  | list => "list"
  | map => "map"

namespace Value

/-- The sort of a value. -/
def kind : Value → Kind
  | null => .null
  | bool _ => .boolean
  | int _ => .integer
  | nat _ => .integer
  | float _ => .float
  | str _ => .string
  | list _ => .list
  | map _ => .map

/-- The map without entries. -/
def emptyMap : Value := map []

/-- The entries of a map; a value of another sort has none. -/
def entries : Value → Dictionary Value
  | map es => es
  | _ => []

/-! ### Showing a value -/

mutual

/-- How a value is shown: null as nothing, a text as itself, a list between brackets and a map
between braces. Nothing is sorted here: the entries of a map are shown in the order of the
dictionary, which ascends in every value of a datum (`Stencil.Datum.isOrdered_of_toValue`). -/
def text : Value → String
  | null => ""
  | bool b => if b then "true" else "false"
  | int n => toString n
  | nat n => toString n
  | float x => x.text
  | str s => s
  | list items => "[" ++ String.intercalate ", " (itemTexts items) ++ "]"
  | map es => openBrace ++ String.intercalate ", " (entryTexts es) ++ closeBrace

/-- How the items of a list are shown, one by one. -/
def itemTexts : List Value → List String
  | [] => []
  | v :: vs => v.text :: itemTexts vs

/-- How the entries of a map are shown, one by one. -/
def entryTexts : List (String × Value) → List String
  | [] => []
  | (k, v) :: es => (k ++ ": " ++ v.text) :: entryTexts es

end

theorem entryTexts_eq_map (es : List (String × Value)) :
    entryTexts es = es.map fun e => e.1 ++ ": " ++ e.2.text := by
  induction es with
  | nil => rfl
  | cons e es ih => rw [entryTexts, ih, List.map_cons]

end Value

end Stencil
