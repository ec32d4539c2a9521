import Mathlib.Data.List.Induction
import Stencil.Proofs.Datum.Entries

/-!
# Filling a map call by call

A map is given by calls in any order. A key that is announced waits for its value, a further key
takes its place, and a value uses up the key that waits. So the calls make a map if every key is of
a sort that has a name, every key and value has a value, and no value comes without a key since the
value before it.

The entries of the map are then known from the calls. A name has an entry if some value was given
while a key of that name was the one announced last, and it has the last value given like this. The
fields of a record fill a map in the same way, each under its own name.

## Main definitions

* `Stencil.Dictionary.IsFilledBy`: a dictionary with the last of several values of each name.
* `Stencil.Value.IsScalar`: the values that can be keys.
* `Stencil.Call.lastKey?`, `Stencil.Call.Puts`: the key announced last, and the values put under its
  name.
* `Stencil.Call.Announced`: every value has a key of its own.
* `Stencil.Filling`, `Stencil.Filling.step`: the state between two calls.

## Main results

* `Stencil.Dictionary.IsFilledBy.insert`: one more value.
* `Stencil.Filling.exists_run_eq_ok_iff`: which calls make a map.
* `Stencil.Filling.isFilledBy_of_run`: the entries of the map.
* `Stencil.Datum.exists_toValue_map_eq_ok_iff`: which maps have a value.
* `Stencil.Datum.toValue_map_eq_ok_iff`, `Stencil.Datum.toValue_record_eq_ok_iff`: the values of
  maps and records.
* `Stencil.Datum.toValue_map_of_key`: keys that no value follows.
* `Stencil.Datum.toValue_map_eq_ok_iff_and_isFilledBy`: all of this, with keys that are shown alike.
-/

namespace Stencil

open Dictionary (Ascending find? insertAll keys)

/-! ### Dictionaries of last values -/

namespace Dictionary

variable {α : Type} {es : Dictionary α} {puts puts' : Nat → String → α → Prop} {n : Nat}

/-- The dictionary has an entry for each name that some step puts a value under, with the value of
the last such step. -/
structure IsFilledBy (es : Dictionary α) (puts : Nat → String → α → Prop) : Prop where
  ascending : Ascending es
  mem_keys_iff : ∀ name, name ∈ keys es ↔ ∃ i value, puts i name value
  find?_eq_some_iff : ∀ name value, find? name es = some value ↔
    ∃ i, puts i name value ∧ ∀ j other, i < j → ¬ puts j name other

theorem isFilledBy_nil (h : ∀ i name value, ¬ puts i name value) :
    IsFilledBy ([] : Dictionary α) puts where
  ascending := ascending_nil
  mem_keys_iff name := iff_of_false (List.not_mem_nil) fun ⟨i, value, hp⟩ => h i name value hp
  find?_eq_some_iff name value := iff_of_false nofun fun ⟨i, hp, _⟩ => h i name value hp

theorem IsFilledBy.congr (h : IsFilledBy es puts)
    (hputs : ∀ i name value, puts' i name value ↔ puts i name value) : IsFilledBy es puts' where
  ascending := h.ascending
  mem_keys_iff name := by simp only [h.mem_keys_iff, hputs]
  find?_eq_some_iff name value := by simp only [h.find?_eq_some_iff, hputs]

/-- What the steps put determines the dictionary. -/
theorem IsFilledBy.unique {es' : Dictionary α} (h : IsFilledBy es puts)
    (h' : IsFilledBy es' puts) : es = es' := by
  refine ext_of_find? h.ascending h'.ascending fun name => Option.ext fun value => ?_
  rw [h.find?_eq_some_iff, h'.find?_eq_some_iff]

section Insert

variable {name : String} {value : α}
  (hputs : ∀ i other v, puts' i other v ↔ puts i other v ∨ i = n ∧ other = name ∧ v = value)
include hputs

/-- One more step puts the last value under its name. -/
theorem exists_last_iff_eq (hn : ∀ i name value, puts i name value → i < n) {v : α} :
    (∃ i, puts' i name v ∧ ∀ j w, i < j → ¬ puts' j name w) ↔ v = value := by
  simp only [hputs, true_and]
  constructor
  · rintro ⟨i, hp | ⟨-, rfl⟩, hlast⟩
    · exact absurd (.inr ⟨rfl, rfl⟩) (hlast n value (hn i _ v hp))
    · rfl
  · rintro rfl
    refine ⟨n, .inr ⟨rfl, rfl⟩, fun j w hj => ?_⟩
    rintro (hp | ⟨rfl, -⟩)
    · exact absurd (hn j _ w hp) (Nat.not_lt.2 (Nat.le_of_lt hj))
    · exact Nat.lt_irrefl _ hj

/-- One more step puts nothing under other names. -/
theorem exists_last_congr_of_ne {other : String} (hne : other ≠ name) {v : α} :
    (∃ i, puts' i other v ∧ ∀ j w, i < j → ¬ puts' j other w) ↔
      ∃ i, puts i other v ∧ ∀ j w, i < j → ¬ puts j other w := by
  have hother : ∀ i w, puts' i other w ↔ puts i other w := fun i w =>
    (hputs i other w).trans (or_iff_left fun h => hne h.2.1)
  simp only [hother]

/-- One more step puts one more value under its name. -/
theorem IsFilledBy.insert (h : IsFilledBy es puts)
    (hn : ∀ i name value, puts i name value → i < n) :
    IsFilledBy (Dictionary.insert name value es) puts' where
  ascending := h.ascending.insert name value
  mem_keys_iff other := by
    rw [mem_keys_insert, h.mem_keys_iff]
    simp only [hputs]
    constructor
    · rintro (rfl | ⟨i, v, hp⟩)
      · exact ⟨n, value, .inr ⟨rfl, rfl, rfl⟩⟩
      · exact ⟨i, v, .inl hp⟩
    · rintro ⟨i, v, hp | ⟨-, rfl, -⟩⟩
      · exact .inr ⟨i, v, hp⟩
      · exact .inl rfl
  find?_eq_some_iff other v := by
    rw [find?_insert]
    split
    · rename_i heq
      subst heq
      rw [exists_last_iff_eq hputs hn, Option.some.injEq, eq_comm]
    · rename_i hne
      rw [h.find?_eq_some_iff, exists_last_congr_of_ne hputs fun heq => hne heq.symm]

end Insert

/-- Entries that overwrite each other put one value each. -/
theorem isFilledBy_insertAll (named : List (String × α)) :
    IsFilledBy (insertAll named []) fun i name value => named[i]? = some (name, value) := by
  induction named using List.reverseRecOn with
  | nil => exact isFilledBy_nil nofun
  | append_singleton named e ih =>
    have hinsert : insertAll (named ++ [e]) [] = Dictionary.insert e.1 e.2 (insertAll named []) :=
      List.foldl_append
    rw [hinsert]
    refine ih.insert ?_ fun i name value hi => (List.getElem?_eq_some_iff.1 hi).1
    intro i name value
    grind

end Dictionary

/-! ### Names of keys -/

/-- A value that can be a key: a text, a boolean or a number. -/
def Value.IsScalar (v : Value) : Prop :=
  v.kind ∈ [Kind.string, .boolean, .integer, .float]

instance : DecidablePred Value.IsScalar :=
  fun v => inferInstanceAs (Decidable (v.kind ∈ [Kind.string, .boolean, .integer, .float]))

theorem Value.keyText_eq_ok_iff {v : Value} {name : String} :
    v.keyText = .ok name ↔ v.IsScalar ∧ v.text = name := by
  cases v <;> simp [keyText, IsScalar, kind, text]

theorem Datum.keyName_eq_ok_iff {d : Datum} {name : String} :
    d.keyName = .ok name ↔ ∃ v, d.toValue = .ok v ∧ v.IsScalar ∧ v.text = name := by
  simp only [keyName, bind_eq_ok_iff, Value.keyText_eq_ok_iff]

/-- A key has a name if its value is a scalar. -/
theorem Datum.exists_keyName_eq_ok_iff {d : Datum} :
    (∃ name, d.keyName = .ok name) ↔ ∃ v, d.toValue = .ok v ∧ v.IsScalar := by
  simp only [keyName_eq_ok_iff]
  exact ⟨fun ⟨name, v, hv, hs, _⟩ => ⟨v, hv, hs⟩, fun ⟨v, hv, hs⟩ => ⟨v.text, v, hv, hs, rfl⟩⟩

/-! ### Keys and values among the calls -/

namespace Call

/-- The datum of a key. -/
def key? : Call → Option Datum
  | key d => some d
  | value _ => none

/-- The key that was announced last, whether or not it was used up. -/
def lastKey? (calls : List Call) : Option Datum :=
  calls.reverse.findSome? key?

/-- The call at a place gives a value under the name of the key announced last before it. -/
def Puts (calls : List Call) (i : Nat) (name : String) (v : Value) : Prop :=
  ∃ k d, calls[i]? = some (.value d) ∧ lastKey? (calls.take i) = some k ∧
    k.keyName = .ok name ∧ d.toValue = .ok v

/-- There is a key between a value and every value before it, and between the start and every
value. -/
def Announced (calls : List Call) : Prop :=
  ∀ before between d behind, calls = before ++ (between ++ .value d :: behind) →
    (∀ k, before.getLast? ≠ some (.key k)) → ∃ k, .key k ∈ between

variable {calls : List Call}

theorem lastKey?_append_key (calls : List Call) (k : Datum) :
    lastKey? (calls ++ [.key k]) = some k := by
  rw [lastKey?, List.reverse_append]
  rfl

theorem Puts.lt_length {i : Nat} {name : String} {v : Value} (h : Puts calls i name v) :
    i < calls.length := by
  obtain ⟨k, d, hcall, -⟩ := h
  exact (List.getElem?_eq_some_iff.1 hcall).1

theorem puts_append_singleton_iff {c : Call} {i : Nat} {name : String} {v : Value} :
    Puts (calls ++ [c]) i name v ↔ Puts calls i name v ∨ i = calls.length ∧
      ∃ k d, c = .value d ∧ lastKey? calls = some k ∧ k.keyName = .ok name ∧
        d.toValue = .ok v := by
  rcases Nat.lt_trichotomy i calls.length with hi | rfl | hi
  · rw [Puts, List.getElem?_append_left hi, List.take_append_of_le_length (Nat.le_of_lt hi)]
    exact (or_iff_left fun h => absurd h.1 (Nat.ne_of_lt hi)).symm
  · rw [Puts, List.getElem?_concat_length, List.take_left, or_iff_right fun h =>
      Nat.lt_irrefl _ h.lt_length, and_iff_right rfl]
    simp only [Option.some.injEq]
  · refine iff_of_false (fun h => ?_) ?_
    · have hlt := h.lt_length
      rw [List.length_append, List.length_singleton] at hlt
      exact Nat.not_lt.2 (Nat.le_of_lt_succ hlt) hi
    · rintro (h | ⟨rfl, -⟩)
      · exact Nat.lt_asymm h.lt_length hi
      · exact Nat.lt_irrefl _ hi

/-- One more call: if it is a value, there has to be a key just before it. -/
theorem announced_append_singleton_iff {c : Call} : Announced (calls ++ [c]) ↔
    Announced calls ∧ ∀ d, c = .value d → ∃ k, calls.getLast? = some (.key k) := by
  constructor
  · intro h
    refine ⟨fun before between d behind heq hbefore => ?_, ?_⟩
    · refine h before between d (behind ++ [c]) ?_ hbefore
      rw [heq]
      simp only [List.append_assoc, List.cons_append]
    · rintro d rfl
      by_contra hlast
      obtain ⟨k, hk⟩ := h calls [] d [] rfl (not_exists.1 hlast)
      cases hk
  · rintro ⟨h, hlast⟩ before between d behind heq hbefore
    rcases List.eq_nil_or_concat behind with rfl | ⟨rest, c', rfl⟩
    · rw [← List.append_assoc] at heq
      obtain ⟨rfl, hc⟩ := List.append_inj' heq rfl
      obtain ⟨k, hk⟩ := hlast d (List.singleton_inj.1 hc)
      rcases List.eq_nil_or_concat between with rfl | ⟨front, c', rfl⟩
      · rw [List.append_nil] at hk
        exact absurd hk (hbefore k)
      · rw [List.concat_eq_append, ← List.append_assoc, List.getLast?_concat] at hk
        refine ⟨k, ?_⟩
        rw [← Option.some.inj hk]
        simp
    · have heq' : calls ++ [c] = (before ++ (between ++ .value d :: rest)) ++ [c'] := by
        rw [heq, List.concat_eq_append]
        simp only [List.append_assoc, List.cons_append]
      exact h before between d rest (List.append_inj' heq' rfl).1 hbefore

theorem announced_nil : Announced [] := by
  intro before between d behind heq
  simp at heq

end Call

/-! ### The state between two calls -/

/-- A map that is being filled. -/
structure Filling where
  /-- The name of the key that waits for its value. -/
  pending : Option String
  /-- The entries so far. -/
  entries : Dictionary Value

namespace Filling

/-- The state after a call. -/
def step (s : Filling) : Call → Except Offence Filling
  | .key d => d.keyName.map fun name => ⟨some name, s.entries⟩
  | .value d => d.toValue.bind fun v =>
    match s.pending with
    | none => .error .missingKey
    | some name => .ok ⟨none, Dictionary.insert name v s.entries⟩

/-- The state after several calls, from the start. -/
def run (calls : List Call) : Except Offence Filling :=
  calls.foldlM step ⟨none, []⟩

variable {s s' : Filling} {d : Datum} {calls : List Call}

theorem step_key_eq_ok_iff : s.step (.key d) = .ok s' ↔
    ∃ name, d.keyName = .ok name ∧ ⟨some name, s.entries⟩ = s' :=
  map_eq_ok_iff

theorem step_value_eq_ok_iff : s.step (.value d) = .ok s' ↔
    ∃ v name, d.toValue = .ok v ∧ s.pending = some name ∧
      ⟨none, Dictionary.insert name v s.entries⟩ = s' := by
  rw [step, bind_eq_ok_iff]
  refine exists_congr fun v => ?_
  cases s.pending with
  | none => exact iff_of_false (fun h => nomatch h.2) fun ⟨_, _, h, _⟩ => nomatch h
  | some name =>
    constructor
    · rintro ⟨hv, hs⟩
      exact ⟨name, hv, rfl, Except.ok.inj hs⟩
    · rintro ⟨name, hv, ⟨⟩, hs⟩
      exact ⟨hv, congrArg _ hs⟩

/-- When a call is taken: a key needs a name, and a value needs a key that waits. -/
theorem exists_step_eq_ok_iff {c : Call} : (∃ s', s.step c = .ok s') ↔
    (∀ k, .key k = c → ∃ name, k.keyName = .ok name) ∧
      (∀ d, .value d = c → ∃ v, d.toValue = .ok v) ∧
        ∀ d, c = .value d → ∃ name, s.pending = some name := by
  cases c with
  | key k => simp [step_key_eq_ok_iff]
  | value d => simp [step_value_eq_ok_iff]

/-- The entries of a datum are those of the state after its calls. -/
theorem callEntries_eq_map_foldlM (calls : List Call) (s : Filling) :
    Datum.callEntries calls s.pending s.entries = (calls.foldlM step s).map entries := by
  induction calls generalizing s with
  | nil => rfl
  | cons c calls ih =>
    rw [List.foldlM_cons]
    cases c with
    | key d =>
      rw [Datum.callEntries_key, step]
      cases d.keyName with
      | error e => rfl
      | ok name => exact ih ⟨some name, s.entries⟩
    | value d =>
      rw [step]
      cases hs : s.pending with
      | none =>
        rw [Datum.callEntries_value_none]
        cases d.toValue <;> rfl
      | some name =>
        rw [Datum.callEntries_value_some]
        cases d.toValue with
        | error e => rfl
        | ok v => exact ih ⟨none, Dictionary.insert name v s.entries⟩

theorem run_append_singleton_eq_ok_iff {c : Call} :
    run (calls ++ [c]) = .ok s' ↔ ∃ s, run calls = .ok s ∧ s.step c = .ok s' := by
  rw [run, List.foldlM_append]
  refine bind_eq_ok_iff.trans (exists_congr fun s => and_congr_right fun _ => ?_)
  rw [List.foldlM_cons]
  cases s.step c <;> exact Iff.rfl

/-- A key waits exactly if it was announced just now. -/
theorem exists_pending_of_run (h : run calls = .ok s) :
    (∃ name, s.pending = some name) ↔ ∃ k, calls.getLast? = some (.key k) := by
  rcases List.eq_nil_or_concat calls with rfl | ⟨calls, c, rfl⟩
  · cases h
    exact iff_of_false nofun nofun
  · rw [List.concat_eq_append] at h ⊢
    rw [List.getLast?_concat]
    obtain ⟨s₀, -, h⟩ := run_append_singleton_eq_ok_iff.1 h
    cases c with
    | key k =>
      obtain ⟨name, -, rfl⟩ := step_key_eq_ok_iff.1 h
      exact iff_of_true ⟨name, rfl⟩ ⟨k, rfl⟩
    | value d =>
      obtain ⟨v, name, -, -, rfl⟩ := step_value_eq_ok_iff.1 h
      exact iff_of_false nofun nofun

/-- The key that waits is the one that was announced last. -/
theorem exists_lastKey?_of_run (h : run calls = .ok s) {name : String}
    (hs : s.pending = some name) : ∃ k, Call.lastKey? calls = some k ∧ k.keyName = .ok name := by
  rcases List.eq_nil_or_concat calls with rfl | ⟨calls, c, rfl⟩
  · cases h
    cases hs
  · rw [List.concat_eq_append] at h ⊢
    obtain ⟨s₀, -, h⟩ := run_append_singleton_eq_ok_iff.1 h
    cases c with
    | key k =>
      obtain ⟨name, hname, rfl⟩ := step_key_eq_ok_iff.1 h
      cases hs
      exact ⟨k, Call.lastKey?_append_key calls k, hname⟩
    | value d =>
      obtain ⟨v, name, -, -, rfl⟩ := step_value_eq_ok_iff.1 h
      cases hs

/-- Which calls make a map: every key has a name, every value a value, and no value comes without a
key. -/
theorem exists_run_eq_ok_iff : (∃ s, run calls = .ok s) ↔
    (∀ k, .key k ∈ calls → ∃ name, k.keyName = .ok name) ∧
      (∀ d, .value d ∈ calls → ∃ v, d.toValue = .ok v) ∧ Call.Announced calls := by
  -- By the last call: whether a key waits for it is known from the call before it.
  induction calls using List.reverseRecOn with
  | nil => exact iff_of_true ⟨_, rfl⟩ ⟨nofun, nofun, Call.announced_nil⟩
  | append_singleton calls c ih =>
    simp only [run_append_singleton_eq_ok_iff, Call.announced_append_singleton_iff,
      List.mem_append, List.mem_singleton, or_imp, forall_and]
    constructor
    · rintro ⟨s', s, hs, hstep⟩
      obtain ⟨hkeys, hvalues, hann⟩ := ih.1 ⟨s, hs⟩
      obtain ⟨hkey, hvalue, hpending⟩ := exists_step_eq_ok_iff.1 ⟨s', hstep⟩
      exact ⟨⟨hkeys, hkey⟩, ⟨hvalues, hvalue⟩, hann,
        fun d hc => (exists_pending_of_run hs).1 (hpending d hc)⟩
    · rintro ⟨⟨hkeys, hkey⟩, ⟨hvalues, hvalue⟩, hann, hlast⟩
      obtain ⟨s, hs⟩ := ih.2 ⟨hkeys, hvalues, hann⟩
      obtain ⟨s', hstep⟩ := exists_step_eq_ok_iff.2
        ⟨hkey, hvalue, fun d hc => (exists_pending_of_run hs).2 (hlast d hc)⟩
      exact ⟨s', s, hs, hstep⟩

/-- The entries of the map are the last values under each name. -/
theorem isFilledBy_of_run (h : run calls = .ok s) :
    Dictionary.IsFilledBy s.entries (Call.Puts calls) := by
  induction calls using List.reverseRecOn generalizing s with
  | nil =>
    cases h
    refine Dictionary.isFilledBy_nil fun i name v hp => ?_
    exact Nat.not_lt_zero _ hp.lt_length
  | append_singleton calls c ih =>
    obtain ⟨s₀, hs₀, h⟩ := run_append_singleton_eq_ok_iff.1 h
    cases c with
    | key k =>
      obtain ⟨name, -, rfl⟩ := step_key_eq_ok_iff.1 h
      refine (ih hs₀).congr fun i name v => Call.puts_append_singleton_iff.trans ?_
      exact or_iff_left fun ⟨_, _, _, hc, _⟩ => nomatch hc
    | value d =>
      obtain ⟨v, name, hv, hpending, rfl⟩ := step_value_eq_ok_iff.1 h
      obtain ⟨k, hk, hname⟩ := exists_lastKey?_of_run hs₀ hpending
      refine (ih hs₀).insert (fun i other w => ?_) fun i name v hp => hp.lt_length
      rw [Call.puts_append_singleton_iff]
      refine or_congr_right (and_congr_right fun _ => ?_)
      constructor
      · rintro ⟨k', d', ⟨⟩, hk', hother, hw⟩
        cases hk.symm.trans hk'
        exact ⟨Except.ok.inj (hother.symm.trans hname), Except.ok.inj (hw.symm.trans hv)⟩
      · rintro ⟨rfl, rfl⟩
        exact ⟨k, d, rfl, hk, hname, hv⟩

/-- Calls that start with no value do not see which key waits. -/
theorem map_entries_foldlM_congr {behind : List Call} (hs : s.entries = s'.entries)
    (hhead : ∀ d, behind.head? ≠ some (.value d)) :
    (behind.foldlM step s).map entries = (behind.foldlM step s').map entries := by
  cases behind with
  | nil => exact congrArg Except.ok hs
  | cons c behind =>
    cases c with
    | key k => rw [List.foldlM_cons, List.foldlM_cons, step, step, hs]
    | value d => exact absurd rfl (hhead d)

/-- A key that no value follows leaves no entry. -/
theorem map_entries_run_eq_ok_of_key {before behind : List Call} {k : Datum}
    {es : Dictionary Value} (hhead : ∀ d, behind.head? ≠ some (.value d))
    (h : (run (before ++ .key k :: behind)).map entries = .ok es) :
    (run (before ++ behind)).map entries = .ok es := by
  rw [run, List.foldlM_append] at h ⊢
  obtain ⟨s', h, hes⟩ := map_eq_ok_iff.1 h
  obtain ⟨s, hs, h⟩ := bind_eq_ok_iff.1 h
  rw [List.foldlM_cons] at h
  obtain ⟨s₁, hstep, h⟩ := bind_eq_ok_iff.1 h
  obtain ⟨name, -, rfl⟩ := step_key_eq_ok_iff.1 hstep
  -- The calls behind the key fill the same entries from the state in front of it.
  have hbehind := @map_entries_foldlM_congr s ⟨some name, s.entries⟩ _ rfl hhead
  rw [h, Except.map, hes] at hbehind
  rw [hs]
  exact hbehind

/-- Keys with the same name are one key. -/
theorem run_eq_run_of_keyName {before behind : List Call} {k k' : Datum}
    (h : k.keyName = k'.keyName) :
    run (before ++ .key k :: behind) = run (before ++ .key k' :: behind) := by
  simp only [run, List.foldlM_append, List.foldlM_cons, step, h]

end Filling

/-! ### Maps and records -/

namespace Datum

variable {calls : List Call} {fields : List (String × Datum)} {es : Dictionary Value}

theorem toValue_map_eq_map_run (calls : List Call) :
    (map calls).toValue = ((Filling.run calls).map Filling.entries).map .map :=
  congrArg (Except.map Value.map) (Filling.callEntries_eq_map_foldlM calls ⟨none, []⟩)

theorem toValue_record_eq_map_mapM (fields : List (String × Datum)) :
    (record fields).toValue =
      ((fields.mapM namedField).map fun named => insertAll named []).map .map := by
  have hentries : fieldEntries fields [] =
      (fields.mapM namedField).bind fun named => fieldEntries [] (insertAll named []) := by
    rw [← fieldEntries_append, List.append_nil]
  rw [toValue, hentries]
  cases fields.mapM namedField <;> rfl

theorem namedField_eq_ok_iff {f : String × Datum} {name : String} {v : Value} :
    namedField f = .ok (name, v) ↔ f.1 = name ∧ f.2.toValue = .ok v := by
  rw [namedField, map_eq_ok_iff]
  constructor
  · rintro ⟨w, hw, ⟨⟩⟩
    exact ⟨rfl, hw⟩
  · rintro ⟨rfl, hv⟩
    exact ⟨v, hv, rfl⟩

/-- The calls that make a map. -/
theorem exists_toValue_map_eq_ok_iff : (∃ v, (map calls).toValue = .ok v) ↔
    (∀ k, .key k ∈ calls → ∃ w, k.toValue = .ok w ∧ w.IsScalar) ∧
      (∀ d, .value d ∈ calls → ∃ w, d.toValue = .ok w) ∧ Call.Announced calls := by
  rw [toValue_map_eq_map_run, exists_map_eq_ok_iff, exists_map_eq_ok_iff,
    Filling.exists_run_eq_ok_iff]
  simp only [exists_keyName_eq_ok_iff]

/-- The calls and the dictionary of a map. -/
theorem toValue_map_eq_ok_iff {v : Value} : (map calls).toValue = .ok v ↔
    (∀ k, .key k ∈ calls → ∃ w, k.toValue = .ok w ∧ w.IsScalar) ∧
      (∀ d, .value d ∈ calls → ∃ w, d.toValue = .ok w) ∧ Call.Announced calls ∧
        ∃ es, v = .map es ∧ Dictionary.IsFilledBy es (Call.Puts calls) := by
  simp only [toValue_map_eq_map_run, map_eq_ok_iff, ← exists_keyName_eq_ok_iff]
  constructor
  · rintro ⟨_, ⟨s, hs, rfl⟩, rfl⟩
    obtain ⟨hkeys, hvalues, hann⟩ := Filling.exists_run_eq_ok_iff.1 ⟨s, hs⟩
    exact ⟨hkeys, hvalues, hann, s.entries, rfl, Filling.isFilledBy_of_run hs⟩
  · rintro ⟨hkeys, hvalues, hann, es, rfl, hes⟩
    obtain ⟨s, hs⟩ := Filling.exists_run_eq_ok_iff.2 ⟨hkeys, hvalues, hann⟩
    exact ⟨es, ⟨s, hs, (Filling.isFilledBy_of_run hs).unique hes⟩, rfl⟩

/-- The fields and the dictionary of a record. -/
theorem toValue_record_eq_ok_iff {v : Value} : (record fields).toValue = .ok v ↔
    (∀ f ∈ fields, ∃ w, f.2.toValue = .ok w) ∧
      ∃ es, v = .map es ∧ Dictionary.IsFilledBy es fun i name w =>
        ∃ d, fields[i]? = some (name, d) ∧ d.toValue = .ok w := by
  have hfields : (∃ named, fields.mapM namedField = .ok named) ↔
      ∀ f ∈ fields, ∃ w, f.2.toValue = .ok w := by
    simp only [exists_mapM_eq_ok_iff, Prod.exists, namedField_eq_ok_iff, exists_and_left,
      exists_eq_left']
  have hfilled : ∀ named, fields.mapM namedField = .ok named →
      Dictionary.IsFilledBy (insertAll named []) fun i name w =>
        ∃ d, fields[i]? = some (name, d) ∧ d.toValue = .ok w := by
    intro named hnamed
    refine (Dictionary.isFilledBy_insertAll named).congr fun i name w => ?_
    rw [getElem?_of_mapM hnamed]
    constructor
    · rintro ⟨d, hd, hw⟩
      exact ⟨(name, d), hd, namedField_eq_ok_iff.2 ⟨rfl, hw⟩⟩
    · rintro ⟨⟨_, d⟩, hd, hfield⟩
      obtain ⟨rfl, hw⟩ := namedField_eq_ok_iff.1 hfield
      exact ⟨d, hd, hw⟩
  simp only [toValue_record_eq_map_mapM, map_eq_ok_iff]
  constructor
  · rintro ⟨_, ⟨named, hnamed, rfl⟩, rfl⟩
    exact ⟨hfields.1 ⟨named, hnamed⟩, _, rfl, hfilled named hnamed⟩
  · rintro ⟨hvalues, es, rfl, hes⟩
    obtain ⟨named, hnamed⟩ := hfields.2 hvalues
    exact ⟨es, ⟨named, hnamed, (hfilled named hnamed).unique hes⟩, rfl⟩

/-- A key that no value follows can be left out. -/
theorem toValue_map_of_key {before behind : List Call} {k : Datum} {v : Value}
    (hhead : ∀ d, behind.head? ≠ some (.value d))
    (h : (map (before ++ .key k :: behind)).toValue = .ok v) :
    (map (before ++ behind)).toValue = .ok v := by
  rw [toValue_map_eq_map_run, map_eq_ok_iff] at h ⊢
  obtain ⟨es, hes, hv⟩ := h
  exact ⟨es, Filling.map_entries_run_eq_ok_of_key hhead hes, hv⟩

/-- **The contents of maps and records.** Calls make a map exactly if every key is a text, a boolean
or a number, every value has a value, and every value has a key of its own. The map has an entry for
the name of each key that was the last one when a value was given, with the last such value. A key
that no value follows leaves no trace, and two keys that are shown alike are one key, of whatever
sorts they are. A record has, for the name of each field, the value of the last such field. -/
theorem toValue_map_eq_ok_iff_and_isFilledBy (calls : List Call)
    (fields : List (String × Datum)) :
    ((∃ v, (map calls).toValue = .ok v) ↔
      (∀ k, .key k ∈ calls → ∃ w, k.toValue = .ok w ∧ w.IsScalar) ∧
        (∀ d, .value d ∈ calls → ∃ w, d.toValue = .ok w) ∧ Call.Announced calls) ∧
    (∀ v, (map calls).toValue = .ok v ↔
      (∀ k, .key k ∈ calls → ∃ w, k.toValue = .ok w ∧ w.IsScalar) ∧
        (∀ d, .value d ∈ calls → ∃ w, d.toValue = .ok w) ∧ Call.Announced calls ∧
          ∃ es, v = .map es ∧ Dictionary.IsFilledBy es (Call.Puts calls)) ∧
    (∀ before k behind v, calls = before ++ .key k :: behind →
      (∀ d, behind.head? ≠ some (.value d)) → (map calls).toValue = .ok v →
        (map (before ++ behind)).toValue = .ok v) ∧
    (∀ before k k' behind w w', calls = before ++ .key k :: behind →
      k.toValue = .ok w → w.IsScalar → k'.toValue = .ok w' → w'.IsScalar → w.text = w'.text →
        (map calls).toValue = (map (before ++ .key k' :: behind)).toValue) ∧
    ∀ v, (record fields).toValue = .ok v ↔
      (∀ f ∈ fields, ∃ w, f.2.toValue = .ok w) ∧
        ∃ es, v = .map es ∧ Dictionary.IsFilledBy es fun i name w =>
          ∃ d, fields[i]? = some (name, d) ∧ d.toValue = .ok w := by
  refine ⟨exists_toValue_map_eq_ok_iff, fun v => toValue_map_eq_ok_iff, ?_, ?_,
    fun v => toValue_record_eq_ok_iff⟩
  · rintro before k behind v rfl hhead hv
    exact toValue_map_of_key hhead hv
  · rintro before k k' behind w w' rfl hw hscalar hw' hscalar' htext
    have hname : k.keyName = k'.keyName :=
      (keyName_eq_ok_iff.2 ⟨w, hw, hscalar, htext⟩).trans
        (keyName_eq_ok_iff.2 ⟨w', hw', hscalar', rfl⟩).symm
    rw [toValue_map_eq_map_run, toValue_map_eq_map_run, Filling.run_eq_run_of_keyName hname]

/-- The key `a` has no value, `1` comes as a number and as a text in a wrapper, and the last key has
no value: the map has the last value under `1` as its only entry. The record has two fields of one
name. -/
theorem toValue_map_eq_ok_iff_and_isFilledBy_one :
    let behind : List Call := [.key (int 1), .value (bool true), .key (wrapped (str "1")),
      .value (nat 2), .key (bool true)]
    let behind' : List Call := [.value (bool true), .key (wrapped (str "1")), .value (nat 2),
      .key (bool true)]
    let fields := [("n", unit), ("n", nat 3)]
    (map (.key (str "a") :: behind)).toValue = .ok (.map [("1", .nat 2)]) ∧
      (map behind).toValue = .ok (.map [("1", .nat 2)]) ∧
      (map (.key (int 1) :: behind')).toValue = (map (.key (str "1") :: behind')).toValue ∧
      Dictionary.IsFilledBy [("n", Value.nat 3)] fun i name w =>
        ∃ d, fields[i]? = some (name, d) ∧ d.toValue = .ok w := by
  intro behind behind' fields
  obtain ⟨-, -, hdrop, -, hrecord⟩ :=
    toValue_map_eq_ok_iff_and_isFilledBy (.key (str "a") :: behind) fields
  obtain ⟨-, -, -, hlike, -⟩ := toValue_map_eq_ok_iff_and_isFilledBy behind fields
  refine ⟨rfl, ?_, ?_, ?_⟩
  · exact hdrop [] (str "a") behind _ rfl (by rintro d ⟨⟩) rfl
  · exact hlike [] (int 1) (str "1") behind' (.int 1) (.str "1") rfl rfl (by decide) rfl
      (by decide) (by decide +kernel)
  · obtain ⟨-, es, hes, hfilled⟩ := (hrecord (.map [("n", .nat 3)])).1 rfl
    cases hes
    exact hfilled

end Datum

end Stencil
