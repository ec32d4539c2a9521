import Stencil.Fault

/-!
# Data and their values

The context of a template is a datum: what a program hands over, piece by piece. Its value is the
tree that the template sees. Data distinguish more than values do; numbers of all widths become
integers or floats, a present optional value is the value itself, a record becomes a map.

A map is given as a sequence of calls, each of which announces a key or a value. A value belongs to
the key announced last, and a key is used up by its value. When a key gets several values, the last
one counts.

## Main definitions

* `Stencil.Datum`, `Stencil.Call`: data, and the calls that give a map.
* `Stencil.Value.keyText`: the name that a value is as a key.
* `Stencil.Datum.toValue`: the value of a datum, or the first offence.
* `Stencil.Datum.ofEntries`: the map with the given keys and values.
-/

namespace Stencil

mutual

/-- What a program can hand over. -/
inductive Datum where
  /-- Nothing: a unit or an absent optional value. -/
  | unit
  | bool (b : Bool)
  /-- An integer of a type with sign. -/
  | int (n : Int)
  /-- An integer of a type without sign. -/
  | nat (n : Nat)
  /-- An integer of 128 bits, with or without sign. -/
  | wide (signed : Bool)
  /-- A float of 32 bits, as its bits. -/
  | single (word : UInt32)
  | double (x : Decimal.Binary64)
  | char (c : Char)
  | str (s : String)
  | bytes (bs : List UInt8)
  /-- A present optional value, or a value in a wrapper with a type of its own. -/
  | wrapped (d : Datum)
  /-- A case without content, as its name. -/
  | unitCase (name : String)
  | seq (ds : List Datum)
  | map (calls : List Call)
  /-- Named fields in order. -/
  | record (fields : List (String × Datum))
  /-- A datum that reports a failure of its own. -/
  | failing (text : String)

/-- A piece of a map. -/
inductive Call where
  | key (d : Datum)
  | value (d : Datum)

end

/-- The name that a value is as a key of a map. Null, lists and maps are no keys. -/
def Value.keyText (v : Value) : Except Offence String :=
  match v with
  | .str s => .ok s
  | .null => .error (.keyKind .null)
  | .list _ => .error (.keyKind .list)
  | .map _ => .error (.keyKind .map)
  | _ => .ok v.text

namespace Datum

mutual

/-- The value of a datum, or its first offence, depth first: a datum comes after its parts. -/
def toValue : Datum → Except Offence Value
  | unit => .ok .null
  | bool b => .ok (.bool b)
  | int n => .ok (.int n)
  | nat n => .ok (.nat n)
  | wide signed => .error (.wideInteger signed)
  | single word => .ok (.float (.ofBinary32 word))
  | double x => .ok (.float x)
  | char c => .ok (.str (String.singleton c))
  | str s => .ok (.str s)
  | bytes bs => .ok (.list (bs.map fun b => .nat b.toNat))
  | wrapped d => d.toValue
  | unitCase name => .ok (.str name)
  | seq ds => (itemValues ds).map .list
  | map calls => (callEntries calls none []).map .map
  | record fields => (fieldEntries fields []).map .map
  | failing text => .error (.reported text)

/-- The values of the items of a sequence. -/
def itemValues : List Datum → Except Offence (List Value)
  | [] => .ok []
  | d :: ds => do
    let v ← d.toValue
    let vs ← itemValues ds
    return v :: vs

/-- The entries after the remaining calls, given the key that waits for its value and the entries
so far. -/
def callEntries : List Call → Option String → Dictionary Value → Except Offence (Dictionary Value)
  | [], _, entries => .ok entries
  | .key d :: calls, _, entries => do
    let v ← d.toValue
    let name ← v.keyText
    callEntries calls (some name) entries
  | .value d :: calls, pending, entries => do
    let v ← d.toValue
    match pending with
    | none => .error .missingKey
    | some name => callEntries calls none (Dictionary.insert name v entries)

/-- The entries after the remaining fields, given the entries so far. -/
def fieldEntries : List (String × Datum) → Dictionary Value → Except Offence (Dictionary Value)
  | [], entries => .ok entries
  | (name, d) :: fields, entries => do
    let v ← d.toValue
    fieldEntries fields (Dictionary.insert name v entries)

end

/-- The calls that give keys and values in turn. -/
def callsOfEntries (es : List (Datum × Datum)) : List Call :=
  es.flatMap fun e => [.key e.1, .value e.2]

/-- The map with the given keys and values, in order. -/
def ofEntries (es : List (Datum × Datum)) : Datum :=
  map (callsOfEntries es)

end Datum

end Stencil
