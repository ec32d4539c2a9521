import Mathlib.Data.List.Nodup
import Stencil.Datum
import Stencil.Proofs.Dictionary
import Stencil.Proofs.Fallible

/-!
# The entries of a datum

A map that is given by a key and a value in turn, and a record, have entries: each is a name with a
value, or the offence of its key or value. The value of the datum is the empty dictionary
overwritten by these entries, one after the other. So it depends on the entries alone, and on their
order only where a name comes more than once.

## Main definitions

* `Stencil.Datum.keyName`: the name that a datum is as a key.
* `Stencil.Datum.namedEntry`, `Stencil.Datum.namedField`: an entry of a map and of a record.

## Main results

* `Stencil.Datum.callEntries_append`, `Stencil.Datum.fieldEntries_append`: entries in front of
  further calls and fields.
* `Stencil.Datum.nodup_keys_of_namedEntry`, `Stencil.Datum.nodup_keys_of_namedField`: entries with
  different names.
-/

namespace Stencil

namespace Datum

open Dictionary (insertAll keys)

/-- The name that a datum is as a key. -/
def keyName (d : Datum) : Except Offence String :=
  d.toValue.bind Value.keyText

/-- The name and the value of an entry of a map, or its first offence. -/
def namedEntry (e : Datum × Datum) : Except Offence (String × Value) :=
  e.1.keyName.bind fun name => e.2.toValue.map fun v => (name, v)

/-- The name and the value of a field, or the offence of the value. -/
def namedField (f : String × Datum) : Except Offence (String × Value) :=
  f.2.toValue.map fun v => (f.1, v)

variable {calls : List Call} {pending : Option String} {acc : Dictionary Value}

/-! ### Items -/

theorem itemValues_eq_mapM (ds : List Datum) : itemValues ds = ds.mapM toValue := by
  induction ds with
  | nil => rfl
  | cons d ds ih => rw [itemValues, ih, List.mapM_cons]

/-! ### Calls -/

theorem callEntries_key (d : Datum) :
    callEntries (.key d :: calls) pending acc =
      d.keyName.bind fun name => callEntries calls (some name) acc := by
  rw [callEntries, keyName]
  cases d.toValue with
  | error e => rfl
  | ok v => rfl

theorem callEntries_value_some (d : Datum) (name : String) :
    callEntries (.value d :: calls) (some name) acc =
      d.toValue.bind fun v => callEntries calls none (Dictionary.insert name v acc) := by
  rw [callEntries]
  rfl

theorem callEntries_value_none (d : Datum) :
    callEntries (.value d :: calls) none acc = d.toValue.bind fun _ => .error .missingKey := by
  rw [callEntries]
  rfl

theorem callsOfEntries_cons (e : Datum × Datum) (es : List (Datum × Datum)) :
    callsOfEntries (e :: es) = .key e.1 :: .value e.2 :: callsOfEntries es := rfl

/-- An entry puts its value under its name, whichever key was waiting. -/
theorem callEntries_cons_append (e : Datum × Datum) (es : List (Datum × Datum)) :
    callEntries (callsOfEntries (e :: es) ++ calls) pending acc =
      (namedEntry e).bind fun named =>
        callEntries (callsOfEntries es ++ calls) none (Dictionary.insert named.1 named.2 acc) := by
  rw [callsOfEntries_cons, List.cons_append, List.cons_append, callEntries_key, namedEntry]
  cases e.1.keyName with
  | error f => rfl
  | ok name =>
    show callEntries (.value e.2 :: (callsOfEntries es ++ calls)) (some name) acc = _
    rw [callEntries_value_some]
    cases e.2.toValue <;> rfl

/-- In front of an entry no key is left waiting. -/
theorem callEntries_pending {es : List (Datum × Datum)} (hes : es ≠ []) :
    callEntries (callsOfEntries es ++ calls) pending acc =
      callEntries (callsOfEntries es ++ calls) none acc := by
  cases es with
  | nil => exact absurd rfl hes
  | cons e es => rw [callEntries_cons_append, callEntries_cons_append]

/-- Entries overwrite what is there, one after the other. -/
theorem callEntries_append (es : List (Datum × Datum)) (calls : List Call)
    (acc : Dictionary Value) :
    callEntries (callsOfEntries es ++ calls) none acc =
      (es.mapM namedEntry).bind fun named => callEntries calls none (insertAll named acc) := by
  induction es generalizing acc with
  | nil => rfl
  | cons e es ih =>
    rw [callEntries_cons_append, List.mapM_cons]
    cases namedEntry e with
    | error f => rfl
    | ok named =>
      show callEntries (callsOfEntries es ++ calls) none _ = _
      rw [ih]
      cases es.mapM namedEntry <;> rfl

/-! ### Fields -/

theorem fieldEntries_cons (f : String × Datum) (fs : List (String × Datum)) :
    fieldEntries (f :: fs) acc =
      (namedField f).bind fun named =>
        fieldEntries fs (Dictionary.insert named.1 named.2 acc) := by
  obtain ⟨name, d⟩ := f
  rw [fieldEntries, namedField]
  cases d.toValue <;> rfl

/-- Fields overwrite what is there, one after the other. -/
theorem fieldEntries_append (fs behind : List (String × Datum)) (acc : Dictionary Value) :
    fieldEntries (fs ++ behind) acc =
      (fs.mapM namedField).bind fun named => fieldEntries behind (insertAll named acc) := by
  induction fs generalizing acc with
  | nil => rfl
  | cons f fs ih =>
    rw [List.cons_append, fieldEntries_cons, List.mapM_cons]
    cases namedField f with
    | error e => rfl
    | ok named =>
      show fieldEntries (fs ++ behind) _ = _
      rw [ih]
      cases fs.mapM namedField <;> rfl

/-! ### Names -/

variable {named : List (String × Value)}

theorem keyName_of_namedEntry {e : Datum × Datum} {n : String × Value}
    (h : namedEntry e = .ok n) : e.1.keyName = .ok n.1 := by
  obtain ⟨name, hname, h⟩ := bind_eq_ok_iff.1 h
  obtain ⟨v, -, rfl⟩ := map_eq_ok_iff.1 h
  exact hname

theorem fst_of_namedField {f : String × Datum} {n : String × Value} (h : namedField f = .ok n) :
    f.1 = n.1 := by
  obtain ⟨v, -, rfl⟩ := map_eq_ok_iff.1 h
  rfl

/-- Entries whose keys have different names have different names. -/
theorem nodup_keys_of_namedEntry {es : List (Datum × Datum)} (h : es.mapM namedEntry = .ok named)
    (hkeys : (es.map fun e => e.1.keyName).Nodup) : (keys named).Nodup := by
  have hnames : es.map (fun e => e.1.keyName) = (keys named).map .ok := by
    rw [keys, List.map_map]
    exact map_eq_map_of_mapM (fun _ _ => keyName_of_namedEntry) h
  rw [hnames] at hkeys
  exact List.Nodup.of_map Except.ok hkeys

theorem nodup_keys_of_namedField {fs : List (String × Datum)} (h : fs.mapM namedField = .ok named)
    (hkeys : (keys fs).Nodup) : (keys named).Nodup := by
  have hnames : keys fs = keys named := map_eq_map_of_mapM (fun _ _ => fst_of_namedField) h
  rwa [← hnames]

end Datum

end Stencil
