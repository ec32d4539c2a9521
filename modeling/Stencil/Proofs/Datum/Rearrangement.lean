import Mathlib.Logic.Relation
import Stencil.Catalog
import Stencil.Proofs.Datum.Ordered

/-!
# The order of entries

Entries of a map with different names, and fields with different names, may be given in any order.
A datum in which they are rearranged, at any place and any number of times, has the same value, so
no template and no path can tell the two apart.

One step rearranges entries or fields that stand side by side in a datum, or does so in one of its
parts. Entries in front of them or behind them may have names of theirs: the last value of a name
counts, and no step changes which one is the last.

## Main definitions

* `Stencil.Datum.Rearranges`: one step of rearranging.
* `Stencil.Datum.CallsFillLike`, `Stencil.Datum.FieldsFillLike`: calls and fields that fill
  dictionaries as others do.

## Main results

* `Stencil.Datum.Rearranges.toValue_eq_ok`: one step keeps the value.
* `Stencil.Datum.toValue_and_render_of_rearranged`: the order of entries does not show.
-/

namespace Stencil.Datum

open Dictionary (Ascending insertAll keys)

/-- One step of rearranging: entries of a map whose keys have different names, or fields with
different names, stand in another order, in the datum itself or in one of its parts. -/
inductive Rearranges : Datum → Datum → Prop
  | entries (before behind : List Call) {es es' : List (Datum × Datum)}
      (hnames : (es.map fun e => e.1.keyName).Nodup) (h : es.Perm es') :
      Rearranges (map (before ++ (callsOfEntries es ++ behind)))
        (map (before ++ (callsOfEntries es' ++ behind)))
  | fields (before behind : List (String × Datum)) {fs fs' : List (String × Datum)}
      (hnames : (keys fs).Nodup) (h : fs.Perm fs') :
      Rearranges (record (before ++ (fs ++ behind))) (record (before ++ (fs' ++ behind)))
  | wrapped {d d' : Datum} (h : Rearranges d d') : Rearranges (wrapped d) (wrapped d')
  | item (before behind : List Datum) {d d' : Datum} (h : Rearranges d d') :
      Rearranges (seq (before ++ d :: behind)) (seq (before ++ d' :: behind))
  | key (before behind : List Call) {d d' : Datum} (h : Rearranges d d') :
      Rearranges (map (before ++ .key d :: behind)) (map (before ++ .key d' :: behind))
  | value (before behind : List Call) {d d' : Datum} (h : Rearranges d d') :
      Rearranges (map (before ++ .value d :: behind)) (map (before ++ .value d' :: behind))
  | field (before behind : List (String × Datum)) (name : String) {d d' : Datum}
      (h : Rearranges d d') :
      Rearranges (record (before ++ (name, d) :: behind)) (record (before ++ (name, d') :: behind))

/-! ### Entries in another order -/

/-- Where the first calls fill a dictionary in ascending order, the other ones fill it alike. -/
def CallsFillLike (calls calls' : List Call) : Prop :=
  ∀ ⦃pending : Option String⦄ ⦃acc es : Dictionary Value⦄, Ascending acc →
    callEntries calls pending acc = .ok es → callEntries calls' pending acc = .ok es

/-- Where the first fields fill a dictionary in ascending order, the other ones fill it alike. -/
def FieldsFillLike (fs fs' : List (String × Datum)) : Prop :=
  ∀ ⦃acc es : Dictionary Value⦄, Ascending acc →
    fieldEntries fs acc = .ok es → fieldEntries fs' acc = .ok es

theorem CallsFillLike.append_left {calls calls' : List Call} (h : CallsFillLike calls calls')
    (before : List Call) : CallsFillLike (before ++ calls) (before ++ calls') := by
  induction before with
  | nil => exact h
  | cons c before ih =>
    intro pending acc es hacc hes
    rw [List.cons_append] at hes ⊢
    cases c with
    | key d =>
      rw [callEntries_key] at hes ⊢
      obtain ⟨name, hname, hes⟩ := bind_eq_ok_iff.1 hes
      exact bind_eq_ok_iff.2 ⟨name, hname, ih hacc hes⟩
    | value d =>
      cases pending with
      | none =>
        rw [callEntries_value_none] at hes
        obtain ⟨v, -, hes⟩ := bind_eq_ok_iff.1 hes
        cases hes
      | some name =>
        rw [callEntries_value_some] at hes ⊢
        obtain ⟨v, hv, hes⟩ := bind_eq_ok_iff.1 hes
        exact bind_eq_ok_iff.2 ⟨v, hv, ih (hacc.insert name v) hes⟩

theorem FieldsFillLike.append_left {fs fs' : List (String × Datum)} (h : FieldsFillLike fs fs')
    (before : List (String × Datum)) : FieldsFillLike (before ++ fs) (before ++ fs') := by
  intro acc es hacc hes
  rw [fieldEntries_append] at hes ⊢
  obtain ⟨named, hbefore, hes⟩ := bind_eq_ok_iff.1 hes
  exact bind_eq_ok_iff.2 ⟨named, hbefore, h (hacc.insertAll named) hes⟩

/-- Entries whose keys have different names may stand in another order. -/
theorem callsFillLike_of_perm {es es' : List (Datum × Datum)}
    (hnames : (es.map fun e => e.1.keyName).Nodup) (h : es.Perm es') (behind : List Call) :
    CallsFillLike (callsOfEntries es ++ behind) (callsOfEntries es' ++ behind) := by
  intro pending acc fs hacc hfs
  by_cases hes : es = []
  · subst hes
    rwa [h.nil_eq] at hfs
  · have hes' : es' ≠ [] := fun hnil => hes (List.perm_nil.1 (hnil ▸ h))
    rw [callEntries_pending hes, callEntries_append] at hfs
    rw [callEntries_pending hes', callEntries_append]
    obtain ⟨named, hnamed, hfs⟩ := bind_eq_ok_iff.1 hfs
    obtain ⟨named', hnamed', hperm⟩ := mapM_perm h hnamed
    have hkeys : (keys named).Nodup := nodup_keys_of_namedEntry hnamed hnames
    rw [Dictionary.insertAll_perm hperm hkeys hacc] at hfs
    exact bind_eq_ok_iff.2 ⟨named', hnamed', hfs⟩

/-- Fields with different names may stand in another order. -/
theorem fieldsFillLike_of_perm {fs fs' : List (String × Datum)} (hnames : (keys fs).Nodup)
    (h : fs.Perm fs') (behind : List (String × Datum)) :
    FieldsFillLike (fs ++ behind) (fs' ++ behind) := by
  intro acc es hacc hes
  rw [fieldEntries_append] at hes ⊢
  obtain ⟨named, hfs, hes⟩ := bind_eq_ok_iff.1 hes
  obtain ⟨named', hfs', hperm⟩ := mapM_perm h hfs
  have hkeys : (keys named).Nodup := nodup_keys_of_namedField hfs hnames
  rw [Dictionary.insertAll_perm hperm hkeys hacc] at hes
  exact bind_eq_ok_iff.2 ⟨named', hfs', hes⟩

/-! ### Parts of the same value -/

section Part

variable {d d' : Datum} (h : ∀ ⦃v : Value⦄, d.toValue = .ok v → d'.toValue = .ok v)
include h

theorem keyName_of_toValue {name : String} (hname : d.keyName = .ok name) :
    d'.keyName = .ok name := by
  obtain ⟨v, hv, hname⟩ := bind_eq_ok_iff.1 hname
  exact bind_eq_ok_iff.2 ⟨v, h hv, hname⟩

theorem callsFillLike_key (behind : List Call) :
    CallsFillLike (.key d :: behind) (.key d' :: behind) := by
  intro pending acc es hacc hes
  rw [callEntries_key] at hes ⊢
  obtain ⟨name, hname, hes⟩ := bind_eq_ok_iff.1 hes
  exact bind_eq_ok_iff.2 ⟨name, keyName_of_toValue h hname, hes⟩

theorem callsFillLike_value (behind : List Call) :
    CallsFillLike (.value d :: behind) (.value d' :: behind) := by
  intro pending acc es hacc hes
  cases pending with
  | none =>
    rw [callEntries_value_none] at hes
    obtain ⟨v, -, hes⟩ := bind_eq_ok_iff.1 hes
    cases hes
  | some name =>
    rw [callEntries_value_some] at hes ⊢
    obtain ⟨v, hv, hes⟩ := bind_eq_ok_iff.1 hes
    exact bind_eq_ok_iff.2 ⟨v, h hv, hes⟩

theorem fieldsFillLike_cons (name : String) (behind : List (String × Datum)) :
    FieldsFillLike ((name, d) :: behind) ((name, d') :: behind) := by
  intro acc es hacc hes
  obtain ⟨v, hv, hes⟩ := bind_eq_ok_iff.1 hes
  exact bind_eq_ok_iff.2 ⟨v, h hv, hes⟩

theorem toValue_seq_of_toValue {before behind : List Datum} {v : Value}
    (hv : (seq (before ++ d :: behind)).toValue = .ok v) :
    (seq (before ++ d' :: behind)).toValue = .ok v := by
  obtain ⟨vs, hvs, rfl⟩ := map_eq_ok_iff.1 hv
  refine map_eq_ok_iff.2 ⟨vs, ?_, rfl⟩
  rw [itemValues_eq_mapM, List.mapM_append, List.mapM_cons] at hvs ⊢
  obtain ⟨us, hus, hvs⟩ := bind_eq_ok_iff.1 hvs
  obtain ⟨ws, hws, hvs⟩ := bind_eq_ok_iff.1 hvs
  obtain ⟨w, hw, hws⟩ := bind_eq_ok_iff.1 hws
  exact bind_eq_ok_iff.2 ⟨us, hus, bind_eq_ok_iff.2 ⟨ws, bind_eq_ok_iff.2 ⟨w, h hw, hws⟩, hvs⟩⟩

end Part

/-! ### Rearranged data -/

/-- Calls that fill dictionaries alike give the same map. -/
theorem toValue_map_of_callsFillLike {calls calls' : List Call} (h : CallsFillLike calls calls')
    {v : Value} (hv : (map calls).toValue = .ok v) : (map calls').toValue = .ok v := by
  obtain ⟨es, hes, hmap⟩ := map_eq_ok_iff.1 hv
  exact map_eq_ok_iff.2 ⟨es, h Dictionary.ascending_nil hes, hmap⟩

/-- Fields that fill dictionaries alike give the same map. -/
theorem toValue_record_of_fieldsFillLike {fs fs' : List (String × Datum)}
    (h : FieldsFillLike fs fs') {v : Value} (hv : (record fs).toValue = .ok v) :
    (record fs').toValue = .ok v := by
  obtain ⟨es, hes, hmap⟩ := map_eq_ok_iff.1 hv
  exact map_eq_ok_iff.2 ⟨es, h Dictionary.ascending_nil hes, hmap⟩

/-- One step of rearranging keeps the value. -/
theorem Rearranges.toValue_eq_ok {d d' : Datum} (h : Rearranges d d') :
    ∀ ⦃v : Value⦄, d.toValue = .ok v → d'.toValue = .ok v := by
  induction h with
  | entries before behind hnames hperm =>
    exact fun v => toValue_map_of_callsFillLike
      ((callsFillLike_of_perm hnames hperm behind).append_left before)
  | fields before behind hnames hperm =>
    exact fun v => toValue_record_of_fieldsFillLike
      ((fieldsFillLike_of_perm hnames hperm behind).append_left before)
  | wrapped _ ih => exact ih
  | item before behind _ ih => exact fun v => toValue_seq_of_toValue ih
  | key before behind _ ih =>
    exact fun v => toValue_map_of_callsFillLike ((callsFillLike_key ih behind).append_left before)
  | value before behind _ ih =>
    exact fun v => toValue_map_of_callsFillLike ((callsFillLike_value ih behind).append_left before)
  | field before behind name _ ih =>
    exact fun v => toValue_record_of_fieldsFillLike
      ((fieldsFillLike_cons ih name behind).append_left before)

/-- A datum whose entries are rearranged has the same value. -/
theorem toValue_of_rearranged {d d' : Datum} (h : Relation.ReflTransGen Rearranges d d')
    {v : Value} (hv : d.toValue = .ok v) : d'.toValue = .ok v := by
  induction h with
  | refl => exact hv
  | tail _ hstep ih => exact hstep.toValue_eq_ok ih

/-- **The order of entries does not show.** Let the entries of maps and records in a datum be
rearranged, anywhere in it, among entries with different names. Where the datum has a value, so has
the rearranged one; it is shown alike, every path leads in it to a value of the same sort that is
shown alike, and every body has the same output or the same fault. Bodies, templates and pages do
not tell the two data apart as contexts either. Every map in the value is shown with its names in
the ascending order of their bytes. -/
theorem toValue_and_render_of_rearranged {d d' : Datum} {v : Value} (hv : d.toValue = .ok v)
    (h : Relation.ReflTransGen Rearranges d d') :
    (∃ v', d'.toValue = .ok v' ∧ v'.text = v.text ∧
      (∀ path, ((Scope.ofRoot v').lookup path).map (fun w => (w.kind, w.text)) =
        ((Scope.ofRoot v).lookup path).map fun w => (w.kind, w.text)) ∧
      ∀ ns : Body, ns.render (.ofRoot v') = ns.render (.ofRoot v)) ∧
    (∀ ns : Body, ns.evaluate (some d') = ns.evaluate (some d)) ∧
    (∀ t : Template, t.render (some d') = t.render (some d)) ∧
    (∀ (r : Catalog) (name : String) (layout : Option String),
      r.render name (some d') layout = r.render name (some d) layout) ∧
    ∀ es, Value.IsPartOf (.map es) v →
      ((keys es).Pairwise fun k l => Text.bytes k < Text.bytes l) ∧
      (Value.map es).text =
        openBrace ++ String.intercalate ", " (es.map fun e => e.1 ++ ": " ++ e.2.text) ++
          closeBrace := by
  have hv' : d'.toValue = .ok v := toValue_of_rearranged h hv
  have hcontext : contextValue (some d') = contextValue (some d) := by
    rw [contextValue, contextValue, Datum.value, Datum.value, hv, hv']
  refine ⟨⟨v, hv', rfl, fun path => rfl, fun ns => rfl⟩, ?_, ?_, ?_, ?_⟩
  · intro ns
    rw [Body.evaluate, Body.evaluate, hcontext]
  · intro t
    rw [Template.render, Template.render, hcontext]
  · intro r name layout
    rw [Catalog.render, Catalog.render, hcontext]
  · intro es hes
    refine ⟨(isOrdered_of_toValue d hv).pairwise_bytes_lt hes, ?_⟩
    rw [Value.text, Value.entryTexts_eq_map]

/-- A record with a field that is a list with a map in it. The entries of this map, with a number, a
boolean and a text as keys, are turned round, and then the fields of the record are: the value is
shown alike, and a loop over the list has the same output. -/
theorem toValue_and_render_of_rearranged_nested :
    let es : List (Datum × Datum) := [(nat 10, str "ten"), (bool true, unit), (str "b", nat 2)]
    let d := record [("rows", seq [ofEntries es, str "z"]), ("n", int (-1))]
    let d' := record [("n", int (-1)), ("rows", seq [ofEntries es.reverse, str "z"])]
    let ns : Body := [.loop "row" "rows" [.expression "row"]]
    let row := s!"{openBrace}10: ten, b: 2, true: {closeBrace}"
    Relation.ReflTransGen Rearranges d d' ∧
      (∃ v v', d.toValue = .ok v ∧ d'.toValue = .ok v' ∧
        v.text = s!"{openBrace}n: -1, rows: [{row}, z]{closeBrace}" ∧ v'.text = v.text) ∧
      ns.evaluate (some d) = .ok s!"{row}z" ∧
      ns.evaluate (some d') = ns.evaluate (some d) := by
  intro es d d' ns row
  let turned := record [("rows", seq [ofEntries es.reverse, str "z"]), ("n", int (-1))]
  have hentries : Rearranges d turned :=
    .field [] _ "rows" (.item [] _ (.entries [] [] (by decide +kernel) es.reverse_perm.symm))
  have hfields : Rearranges turned d' :=
    @Rearranges.fields [] [] [("rows", _), ("n", _)] _ (by decide +kernel) (List.Perm.swap ..)
  have hsteps : Relation.ReflTransGen Rearranges d d' := .tail (.single hentries) hfields
  have hv : d.toValue = .ok (.map [("n", .int (-1)), ("rows", .list [.map [("10", .str "ten"),
    ("b", .nat 2), ("true", .null)], .str "z"])]) := rfl
  obtain ⟨⟨v', hv', htext, -⟩, heval, -⟩ := toValue_and_render_of_rearranged hv hsteps
  exact ⟨hsteps, ⟨_, v', hv, hv', by decide +kernel, htext⟩, rfl, heval ns⟩

end Stencil.Datum
