import Stencil.Proofs.Datum.Entries
import Stencil.Proofs.Text.ByteOrder

/-!
# Maps in ascending order

The value of a datum has maps at many places: in lists, in maps, and in both of them over and over.
Each of these maps has its names in ascending order, since it was filled by insertion, and it is
shown in this order. This is the order of the bytes of the names.

## Main definitions

* `Stencil.Value.IsPartOf`: the values that a value is made of, itself among them.
* `Stencil.Value.IsOrdered`: every map that is part of the value is in ascending order.

## Main results

* `Stencil.Datum.isOrdered_of_toValue`: the value of a datum is ordered.
* `Stencil.Value.IsOrdered.pairwise_bytes_lt`: the order of the names is that of their bytes.
-/

namespace Stencil

open Dictionary (Ascending keys)

namespace Value

/-! ### Parts of a value -/

/-- A value is part of itself, of every list of which an item has it as a part, and of every map of
which an entry has it as a part. -/
inductive IsPartOf (w : Value) : Value → Prop
  | refl : IsPartOf w w
  | item {v : Value} {items : List Value} (hv : v ∈ items) (h : IsPartOf w v) :
      IsPartOf w (.list items)
  | entry {e : String × Value} {es : List (String × Value)} (he : e ∈ es) (h : IsPartOf w e.2) :
      IsPartOf w (.map es)

/-- The maps that are part of a value have their names in ascending order. -/
def IsOrdered (v : Value) : Prop :=
  ∀ es, IsPartOf (.map es) v → Ascending es

theorem isOrdered_list {items : List Value} (h : ∀ v ∈ items, v.IsOrdered) :
    (list items).IsOrdered := by
  intro es hes
  cases hes with
  | item hv hpart => exact h _ hv es hpart

theorem isOrdered_map_iff {es : List (String × Value)} :
    (map es).IsOrdered ↔ Ascending es ∧ ∀ e ∈ es, e.2.IsOrdered := by
  constructor
  · exact fun h => ⟨h es .refl, fun e he es' hes' => h es' (.entry he hes')⟩
  · rintro ⟨hes, hentries⟩ es' hes'
    cases hes' with
    | refl => exact hes
    | entry he hpart => exact hentries _ he es' hpart

/-- A map stays ordered when an ordered value is put into it. -/
theorem IsOrdered.map_insert {es : List (String × Value)} {v : Value} (hes : (map es).IsOrdered)
    (hv : v.IsOrdered) (name : String) : (map (Dictionary.insert name v es)).IsOrdered := by
  obtain ⟨hascending, hentries⟩ := isOrdered_map_iff.1 hes
  refine isOrdered_map_iff.2 ⟨hascending.insert name v, fun e he => ?_⟩
  rcases Dictionary.mem_of_mem_insert he with rfl | he
  · exact hv
  · exact hentries e he

/-- The names of an ordered map are in the order of their bytes. -/
theorem IsOrdered.pairwise_bytes_lt {v : Value} {es : List (String × Value)} (hv : v.IsOrdered)
    (hes : IsPartOf (.map es) v) : (keys es).Pairwise fun k l => Text.bytes k < Text.bytes l :=
  (hv es hes).imp Text.lt_iff_bytes_lt.1

end Value

/-! ### The value of a datum -/

namespace Datum

open Value (isOrdered_list isOrdered_map_iff)

theorem isOrdered_map_nil : (Value.map []).IsOrdered :=
  isOrdered_map_iff.2 ⟨Dictionary.ascending_nil, by simp⟩

mutual

/-- The value of a datum is ordered. -/
theorem isOrdered_of_toValue : ∀ (d : Datum) {v : Value}, d.toValue = .ok v → v.IsOrdered
  | unit, v, h => by cases h; nofun
  | bool b, v, h => by cases h; nofun
  | int n, v, h => by cases h; nofun
  | nat n, v, h => by cases h; nofun
  | wide signed, v, h => by cases h
  | single word, v, h => by cases h; nofun
  | double x, v, h => by cases h; nofun
  | char c, v, h => by cases h; nofun
  | str s, v, h => by cases h; nofun
  | bytes bs, v, h => by
    cases h
    refine isOrdered_list fun v hv => ?_
    obtain ⟨b, -, rfl⟩ := List.mem_map.1 hv
    nofun
  | wrapped d, v, h => isOrdered_of_toValue d h
  | unitCase name, v, h => by cases h; nofun
  | seq ds, v, h => by
    obtain ⟨vs, hvs, rfl⟩ := map_eq_ok_iff.1 h
    exact isOrdered_list (isOrdered_of_itemValues ds hvs)
  | map calls, v, h => by
    obtain ⟨es, hes, rfl⟩ := map_eq_ok_iff.1 h
    exact isOrdered_of_callEntries calls isOrdered_map_nil hes
  | record fields, v, h => by
    obtain ⟨es, hes, rfl⟩ := map_eq_ok_iff.1 h
    exact isOrdered_of_fieldEntries fields isOrdered_map_nil hes
  | failing text, v, h => by cases h

theorem isOrdered_of_itemValues :
    ∀ (ds : List Datum) {vs : List Value}, itemValues ds = .ok vs → ∀ v ∈ vs, v.IsOrdered
  | [], vs, h => by cases h; simp
  | d :: ds, vs, h => by
    obtain ⟨v, hv, h⟩ := bind_eq_ok_iff.1 h
    obtain ⟨ws, hws, hcons⟩ := bind_eq_ok_iff.1 h
    cases hcons
    exact List.forall_mem_cons.2 ⟨isOrdered_of_toValue d hv, isOrdered_of_itemValues ds hws⟩

theorem isOrdered_of_callEntries :
    ∀ (calls : List Call) {pending : Option String} {acc es : Dictionary Value},
      (Value.map acc).IsOrdered → callEntries calls pending acc = .ok es →
        (Value.map es).IsOrdered
  | [], pending, acc, es, hacc, h => by cases h; exact hacc
  | .key d :: calls, pending, acc, es, hacc, h => by
    rw [callEntries_key] at h
    obtain ⟨name, -, h⟩ := bind_eq_ok_iff.1 h
    exact isOrdered_of_callEntries calls hacc h
  | .value d :: calls, none, acc, es, hacc, h => by
    rw [callEntries_value_none] at h
    obtain ⟨v, -, h⟩ := bind_eq_ok_iff.1 h
    cases h
  | .value d :: calls, some name, acc, es, hacc, h => by
    rw [callEntries_value_some] at h
    obtain ⟨v, hv, h⟩ := bind_eq_ok_iff.1 h
    exact isOrdered_of_callEntries calls (hacc.map_insert (isOrdered_of_toValue d hv) name) h

theorem isOrdered_of_fieldEntries :
    ∀ (fields : List (String × Datum)) {acc es : Dictionary Value},
      (Value.map acc).IsOrdered → fieldEntries fields acc = .ok es → (Value.map es).IsOrdered
  | [], acc, es, hacc, h => by cases h; exact hacc
  | (name, d) :: fields, acc, es, hacc, h => by
    obtain ⟨v, hv, h⟩ := bind_eq_ok_iff.1 h
    exact isOrdered_of_fieldEntries fields (hacc.map_insert (isOrdered_of_toValue d hv) name) h

end

end Datum

end Stencil
