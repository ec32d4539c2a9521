import Mathlib.Logic.Relation
import Stencil.Proofs.Datum.Filling
import Stencil.Template

/-!
# The offences of a datum

A datum has no value if something in it offends: an integer of 128 bits, a datum that reports a
failure, a key of a map that is null, a list or a map, or a value of a map without a key. This may
be anywhere in the datum, also in a key, and also in a value that a later one of the same name would
overwrite.

The offences are listed in the order in which the datum is handed over, and those of a datum itself
come after those of its parts. The list is read off the datum without any values. It is empty if the
datum has a value; otherwise the fault of the datum is the first offence of the list.

## Main definitions

* `Stencil.Datum.kind?`: the sort of the value, read off the datum.
* `Stencil.Datum.offences`: the offences in order.
* `Stencil.Datum.parts`, `Stencil.Datum.IsPartOf`: what a datum is made of.
* `Stencil.Datum.Commits`, `Stencil.Datum.CommitsAsKey`: the offences of a datum that are none of
  its parts.

## Main results

* `Stencil.Datum.failure?_toValue`: the fault is the first offence.
* `Stencil.Datum.mem_offences_iff`: the list has the offences of all parts.
* `Stencil.Datum.value_eq_error_iff_head?_offences`: both for the value that a template is rendered
  against.
-/

namespace Stencil

/-- The datum of a call. -/
def Call.datum : Call → Datum
  | key d => d
  | value d => d

/-- The call announces a key. -/
def Call.isKey : Call → Bool
  | key _ => true
  | value _ => false

namespace Datum

/-! ### The sort of a datum -/

/-- The sort of the value of a datum that has one. -/
def kind? : Datum → Option Kind
  | unit => some .null
  | bool _ => some .boolean
  | int _ => some .integer
  | nat _ => some .integer
  | wide _ => none
  | single _ => some .float
  | double _ => some .float
  | char _ => some .string
  | str _ => some .string
  | bytes _ => some .list
  | wrapped d => d.kind?
  | unitCase _ => some .string
  | seq _ => some .list
  | map _ => some .map
  | record _ => some .map
  | failing _ => none

/-- Where a datum has a value, its sort is that of the value. -/
theorem kind?_of_toValue {v : Value} : ∀ {d : Datum}, d.toValue = .ok v → d.kind? = some v.kind
  | wrapped d, h => kind?_of_toValue (d := d) h
  | seq ds, h => by
    obtain ⟨vs, -, rfl⟩ := map_eq_ok_iff.1 h
    rfl
  | map calls, h | record fields, h => by
    obtain ⟨es, -, rfl⟩ := map_eq_ok_iff.1 h
    rfl
  | unit, h | bool b, h | int n, h | nat n, h | single word, h | double x, h | char c, h
  | str s, h | bytes bs, h | unitCase name, h => by
    cases h
    rfl
  | wide signed, h | failing text, h => by cases h

/-! ### Offences -/

/-- The offence of a key that has a value, but no name. -/
def keyOffences (d : Datum) : List Offence :=
  match d.kind? with
  | some .null => [.keyKind .null]
  | some .list => [.keyKind .list]
  | some .map => [.keyKind .map]
  | _ => []

mutual

/-- The offences of a datum in the order in which it is handed over. -/
def offences : Datum → List Offence
  | wide signed => [.wideInteger signed]
  | failing text => [.reported text]
  | wrapped d => d.offences
  | seq ds => itemOffences ds
  | map calls => callOffences calls false
  | record fields => fieldOffences fields
  | _ => []

/-- The offences of the items of a sequence. -/
def itemOffences : List Datum → List Offence
  | [] => []
  | d :: ds => d.offences ++ itemOffences ds

/-- The offences of the remaining calls, given whether a key waits for its value. A key with
offences in it has no value that could be of the wrong sort. -/
def callOffences : List Call → Bool → List Offence
  | [], _ => []
  | .key d :: calls, _ =>
    (if d.offences.isEmpty then d.keyOffences else d.offences) ++ callOffences calls true
  | .value d :: calls, pending =>
    d.offences ++ (if pending then [] else [.missingKey]) ++ callOffences calls false

/-- The offences of the fields of a record. -/
def fieldOffences : List (String × Datum) → List Offence
  | [] => []
  | (_, d) :: fields => d.offences ++ fieldOffences fields

end

/-! ### Parts -/

/-- What a datum is made of: its content, items, keys, values or fields. -/
def parts : Datum → List Datum
  | wrapped d => [d]
  | seq ds => ds
  | map calls => calls.map Call.datum
  | record fields => fields.map Prod.snd
  | _ => []

theorem sizeOf_lt_of_mem_parts {p d : Datum} (h : p ∈ d.parts) : sizeOf p < sizeOf d := by
  cases d with
  | wrapped d =>
    cases List.mem_singleton.1 h
    simp
  | seq ds =>
    have hlt : sizeOf p < sizeOf ds := List.sizeOf_lt_of_mem h
    simp
    omega
  | map calls =>
    obtain ⟨c, hc, rfl⟩ := List.mem_map.1 h
    have hlt : sizeOf c < sizeOf calls := List.sizeOf_lt_of_mem hc
    cases c <;> simp [Call.datum] at hlt ⊢ <;> omega
  | record fields =>
    obtain ⟨⟨name, d⟩, hf, rfl⟩ := List.mem_map.1 h
    have hlt := List.sizeOf_lt_of_mem hf
    simp at hlt ⊢
    omega
  | _ => cases h

/-- A property of data holds of all of them if it passes from the parts of a datum to the datum. -/
theorem parts_induction {motive : Datum → Prop}
    (h : ∀ d, (∀ p ∈ d.parts, motive p) → motive d) (d : Datum) : motive d :=
  h d fun p _ => parts_induction h p
termination_by sizeOf d
decreasing_by exact sizeOf_lt_of_mem_parts ‹_›

/-! ### The first offence -/

theorem itemOffences_eq_flatMap (ds : List Datum) : itemOffences ds = ds.flatMap offences := by
  induction ds with
  | nil => rfl
  | cons d ds ih => rw [itemOffences, ih, List.flatMap_cons]

theorem fieldOffences_eq_flatMap (fields : List (String × Datum)) :
    fieldOffences fields = fields.flatMap fun f => f.2.offences := by
  induction fields with
  | nil => rfl
  | cons f fields ih =>
    obtain ⟨name, d⟩ := f
    rw [fieldOffences, ih, List.flatMap_cons]

/-- The fault of a value as a key. -/
theorem failure?_keyName {k : Datum} (h : failure? k.toValue = k.offences.head?) :
    failure? k.keyName =
      (if k.offences.isEmpty then k.keyOffences else k.offences).head? := by
  cases hv : k.toValue with
  | error o =>
    rw [hv] at h
    cases ho : k.offences with
    | nil => rw [ho] at h; cases h
    | cons o' os =>
      rw [ho] at h
      rw [keyName, hv]
      exact h
  | ok v =>
    rw [hv] at h
    rw [List.head?_eq_none_iff.1 h.symm, keyName, hv]
    show failure? v.keyText = k.keyOffences.head?
    rw [keyOffences, kind?_of_toValue hv]
    cases v <;> rfl

/-- The fault of the remaining calls. -/
theorem failure?_callEntries {calls : List Call}
    (h : ∀ c ∈ calls, failure? c.datum.toValue = c.datum.offences.head?)
    (pending : Option String) (acc : Dictionary Value) :
    failure? (callEntries calls pending acc) =
      (callOffences calls pending.isSome).head? := by
  -- No entries and no name decide about an offence, only whether a key waits.
  induction calls generalizing pending acc with
  | nil => rfl
  | cons c calls ih =>
    obtain ⟨hc, hcalls⟩ := List.forall_mem_cons.1 h
    cases c with
    | key k =>
      have hk : failure? k.toValue = k.offences.head? := hc
      rw [callEntries_key, callOffences, List.head?_append, ← failure?_keyName hk]
      exact failure?_bind _ fun name => ih hcalls (some name) acc
    | value d =>
      have hd : failure? d.toValue = d.offences.head? := hc
      rw [callOffences, List.append_assoc, List.head?_append, ← hd]
      cases pending with
      | none =>
        rw [callEntries_value_none]
        exact failure?_bind _ fun v => rfl
      | some name =>
        rw [callEntries_value_some]
        exact failure?_bind _ fun v => ih hcalls none _

/-- The fault of a datum is its first offence. -/
theorem failure?_toValue (d : Datum) : failure? d.toValue = d.offences.head? := by
  induction d using parts_induction with
  | h d ih =>
    cases d with
    | wrapped d => exact ih d List.mem_cons_self
    | seq ds =>
      rw [toValue, failure?_map, itemValues_eq_mapM, offences, itemOffences_eq_flatMap]
      exact failure?_mapM_of_head? ih
    | map calls =>
      rw [toValue, failure?_map, offences]
      exact failure?_callEntries (fun c hc => ih _ (List.mem_map_of_mem hc)) none []
    | record fields =>
      rw [toValue_record_eq_map_mapM, failure?_map, failure?_map, offences,
        fieldOffences_eq_flatMap]
      refine failure?_mapM_of_head? fun f hf => ?_
      rw [namedField, failure?_map]
      exact ih f.2 (List.mem_map_of_mem hf)
    | _ => rfl

theorem exists_toValue_eq_ok_iff {d : Datum} : (∃ v, d.toValue = .ok v) ↔ d.offences = [] := by
  rw [← failure?_eq_none_iff, failure?_toValue, List.head?_eq_none_iff]

/-! ### All offences -/

/-- The datum is part of a datum: it is the datum itself, or part of one of its parts. -/
def IsPartOf : Datum → Datum → Prop :=
  Relation.ReflTransGen fun p d => p ∈ d.parts

/-- As a key, a datum commits the offence that its value is null, a list or a map. -/
def CommitsAsKey (k : Datum) (o : Offence) : Prop :=
  ∃ v, k.toValue = .ok v ∧ v.kind ∈ [Kind.null, .list, .map] ∧ o = .keyKind v.kind

/-- A datum commits an offence that is none of its parts: it has no value as such, it is a map with
a key of the wrong sort, or it is a map with a value without a key. -/
def Commits : Datum → Offence → Prop
  | wide signed, o => o = .wideInteger signed
  | failing text, o => o = .reported text
  | map calls, o =>
    (∃ k, .key k ∈ calls ∧ k.CommitsAsKey o) ∨ o = .missingKey ∧ ¬ Call.Announced calls
  | _, _ => False

variable {o : Offence}

theorem mem_ite_keyOffences_iff {k : Datum} :
    o ∈ (if k.offences.isEmpty then k.keyOffences else k.offences) ↔
      o ∈ k.offences ∨ k.CommitsAsKey o := by
  by_cases hk : k.offences = []
  · obtain ⟨v, hv⟩ := exists_toValue_eq_ok_iff.2 hk
    have hkind : o ∈ k.keyOffences ↔
        v.kind ∈ [Kind.null, .list, .map] ∧ o = .keyKind v.kind := by
      rw [keyOffences, kind?_of_toValue hv]
      cases v.kind <;> simp
    simp [CommitsAsKey, hk, hv, hkind]
  · have hv : ∀ v, k.toValue ≠ .ok v := fun v hv => hk (exists_toValue_eq_ok_iff.1 ⟨v, hv⟩)
    simp [CommitsAsKey, hk, hv]

theorem callOffences_append (calls behind : List Call) (pending : Bool) :
    callOffences (calls ++ behind) pending = callOffences calls pending ++
      callOffences behind ((calls.getLast?.map Call.isKey).getD pending) := by
  induction calls generalizing pending with
  | nil => rfl
  | cons c calls ih =>
    have hlast : ((c :: calls).getLast?.map Call.isKey).getD pending =
        (calls.getLast?.map Call.isKey).getD c.isKey := by
      rw [List.getLast?_cons]
      cases calls.getLast? <;> rfl
    rw [hlast]
    cases c with
    | key k =>
      rw [List.cons_append, callOffences, callOffences, ih, List.append_assoc]
      rfl
    | value d =>
      rw [List.cons_append, callOffences, callOffences, ih]
      exact (List.append_assoc _ _ _).symm

theorem isKey_getLast?_iff {calls : List Call} :
    (calls.getLast?.map Call.isKey).getD false = true ↔
      ∃ k, calls.getLast? = some (.key k) := by
  cases calls.getLast? with
  | none => simp
  | some c => cases c <;> simp [Call.isKey]

/-- One more key may be of the wrong sort. -/
theorem commits_map_append_key_iff {calls : List Call} {k : Datum} :
    (map (calls ++ [.key k])).Commits o ↔ (map calls).Commits o ∨ k.CommitsAsKey o := by
  simp only [Commits, Call.announced_append_singleton_iff, reduceCtorEq, false_implies,
    implies_true, and_true, List.mem_append, List.mem_singleton, Call.key.injEq, or_and_right,
    exists_or, exists_eq_left]
  exact or_right_comm

/-- One more value may come without a key. -/
theorem commits_map_append_value_iff {calls : List Call} {d : Datum} :
    (map (calls ++ [.value d])).Commits o ↔ (map calls).Commits o ∨
      o = .missingKey ∧ ¬ ∃ k, calls.getLast? = some (.key k) := by
  simp only [Commits, Call.announced_append_singleton_iff, reduceCtorEq, List.mem_append,
    List.mem_singleton, or_false, Call.value.injEq, forall_eq', not_and_or, and_or_left]
  exact or_assoc.symm

/-- The offences of the calls of a map are its own and those of the keys and values. -/
theorem mem_callOffences_iff {calls : List Call} : o ∈ callOffences calls false ↔
    (map calls).Commits o ∨ ∃ c ∈ calls, o ∈ c.datum.offences := by
  -- By the last call, since `Call.Announced` is known from the call before a value.
  induction calls using List.reverseRecOn with
  | nil => simp [callOffences, Commits, Call.announced_nil]
  | append_singleton calls c ih =>
    have hparts : (∃ c' ∈ calls ++ [c], o ∈ c'.datum.offences) ↔
        (∃ c' ∈ calls, o ∈ c'.datum.offences) ∨ o ∈ c.datum.offences := by
      simp only [List.mem_append, List.mem_singleton, or_and_right, exists_or, exists_eq_left]
    rw [callOffences_append, List.mem_append, ih, hparts]
    cases c with
    | key k =>
      rw [callOffences, callOffences, List.append_nil, mem_ite_keyOffences_iff,
        commits_map_append_key_iff, Call.datum]
      exact (or_congr_right or_comm).trans or_or_or_comm
    | value d =>
      rw [callOffences, callOffences, List.append_nil, List.mem_append,
        commits_map_append_value_iff, ← isKey_getLast?_iff, Call.datum]
      have hmissing : ∀ pending : Bool, o ∈ (if pending then [] else [Offence.missingKey]) ↔
          o = .missingKey ∧ ¬ pending = true := by
        intro pending
        cases pending <;> simp
      rw [hmissing]
      exact (or_congr_right or_comm).trans or_or_or_comm

/-- The offences of a datum are its own and those of its parts. -/
theorem mem_offences_iff_commits_or {d : Datum} :
    o ∈ d.offences ↔ d.Commits o ∨ ∃ p ∈ d.parts, o ∈ p.offences := by
  cases d with
  | wrapped d => simp [offences, Commits, parts]
  | seq ds => simp [offences, Commits, parts, itemOffences_eq_flatMap]
  | map calls => simp [offences, parts, mem_callOffences_iff]
  | record fields =>
    have hparts : (∃ p ∈ fields.map Prod.snd, o ∈ p.offences) ↔
        ∃ f ∈ fields, o ∈ f.2.offences := by
      simp only [List.mem_map, exists_exists_and_eq_and]
    rw [offences, fieldOffences_eq_flatMap, List.mem_flatMap, parts, hparts]
    exact (or_iff_right id).symm
  | _ => simp [offences, Commits, parts]

/-- The list has the offences of all parts. -/
theorem mem_offences_iff {d : Datum} : o ∈ d.offences ↔ ∃ p, IsPartOf p d ∧ p.Commits o := by
  induction d using parts_induction with
  | h d ih =>
    rw [mem_offences_iff_commits_or]
    constructor
    · rintro (h | ⟨p, hp, ho⟩)
      · exact ⟨d, .refl, h⟩
      · obtain ⟨q, hq, hcommits⟩ := (ih p hp).1 ho
        exact ⟨q, .tail hq hp, hcommits⟩
    · rintro ⟨q, hq, hcommits⟩
      cases hq with
      | refl => exact .inl hcommits
      | tail hq hp => exact .inr ⟨_, hp, (ih _ hp).2 ⟨q, hq, hcommits⟩⟩

/-- **The fault of a datum is its first offence.** The list has the offences of a datum and of all
its parts, also of keys and of values that a later one overwrites. A datum has a value if there are
none. Otherwise its fault is that it is no value, because of the first of them; it has no other. -/
theorem value_eq_error_iff_head?_offences (d : Datum) :
    (∀ o, o ∈ d.offences ↔ ∃ p, IsPartOf p d ∧ p.Commits o) ∧
    ((∃ v, d.value = .ok v) ↔ d.offences = []) ∧
    ∀ fault, d.value = .error fault ↔ ∃ o, d.offences.head? = some o ∧ fault = .serialize o := by
  refine ⟨fun o => mem_offences_iff, ?_, fun fault => ?_⟩
  · rw [value, exists_mapError_eq_ok_iff, exists_toValue_eq_ok_iff]
  · rw [value, mapError_eq_error_iff]
    simp only [← failure?_toValue, failure?_eq_some_iff, @eq_comm _ fault]

/-- The parts of a value come before the value without a key, and the items of a key before the
key. -/
example : offences (map [.value (seq [wide true]), .key (seq [failing "late"]), .key (seq []),
    .value unit]) = [.wideInteger true, .missingKey, .reported "late", .keyKind .list] := rfl

end Datum

end Stencil
