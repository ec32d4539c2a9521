import Mathlib.Data.List.Induction
import Stencil.Proofs.Catalog.Loading
import Stencil.Proofs.Fallible
import Stencil.Proofs.Text.ByteOrder

/-!
# The names of a catalog

A catalog lists the names that have a template, in the ascending order of their bytes. Inserting a
source with success puts its name on the list, whether the source is read or is taken for the one
that is published; inserting it without success leaves the list alone. A load inserts its sources up
to the first failure, so it may put only some of its names on the list. What one operation adds and
takes away is known from this, and so the list after a run consists of the names that were inserted
with success and have not been removed since. Digests that collide make no difference here.

## Main definitions

* `Stencil.Catalog.Inserts`: the names under which offered sources are inserted with success.
* `Stencil.Catalog.Keeps`: the names that a run has inserted and not removed since.

## Main results

* `Stencil.Catalog.ascending_apply`, `Stencil.Catalog.ascending_run`: operations keep the order.
* `Stencil.Catalog.mem_names_insertEach_iff`, `Stencil.Catalog.mem_names_apply_iff`: the names after
  a load and after an operation.
* `Stencil.Catalog.pairwise_names_and_mem_names_iff_keeps`: the names after a run.
-/

namespace Stencil.Catalog

variable {r r' : Catalog} {name other source : String} {offers : List (String × Source)}
  {op : Operation} {ops : List Operation}

/-! ### The order of names -/

theorem ascending_insert (h : Dictionary.Ascending r.templates) {q : Catalog × Published}
    (hq : r.insert name source = .ok q) : Dictionary.Ascending q.1.templates := by
  rcases insert_eq_ok_cases hq with ⟨heq, -, -⟩ | ⟨t, -, rfl⟩
  · rwa [heq]
  · exact h.insert t.name _

theorem ascending_insertEach (h : Dictionary.Ascending r.templates)
    (offers : List (String × Source)) : Dictionary.Ascending (r.insertEach offers).1.templates :=
  insertEach_invariant (P := fun r => Dictionary.Ascending r.templates)
    (fun _ _ _ _ _ hinsert h => ascending_insert h hinsert) h

/-- Operations keep the templates in the ascending order of their names. -/
theorem ascending_apply (h : Dictionary.Ascending r.templates) (op : Operation) :
    Dictionary.Ascending (op.apply r).templates := by
  by_cases hremove : ∃ name, op = .remove name
  · obtain ⟨name, rfl⟩ := hremove
    exact h.erase name
  · rw [templates_apply fun name hname => hremove ⟨name, hname⟩]
    exact ascending_insertEach h op.offers

theorem ascending_run (ops : List Operation) : Dictionary.Ascending (run ops).templates :=
  List.foldlRecOn (motive := fun r => Dictionary.Ascending r.templates) ops Operation.apply
    Dictionary.ascending_nil fun _ h op _ => ascending_apply h op

/-! ### Names that are inserted -/

/-- Of some offered sources, one is inserted under a name with success: those in front of it are all
inserted, and so is this one, into the catalog that they leave. -/
def Inserts (r : Catalog) (offers : List (String × Source)) (name : String) : Prop :=
  ∃ before source behind n q, offers = before ++ (name, .ok source) :: behind ∧
    (r.insertEach before).2 = .ok n ∧ (r.insertEach before).1.insert name source = .ok q

theorem not_inserts_nil : ¬ r.Inserts [] name := by
  rintro ⟨before, source, behind, n, q, heq, -⟩
  simp at heq

/-- Behind a source that is not inserted nothing is inserted. -/
theorem not_inserts_cons {s : Source} {fault : Fault}
    (h : s.bind (r.insert other) = .error fault) : ¬ r.Inserts ((other, s) :: offers) name := by
  rintro ⟨before, source, behind, n, q, heq, hbefore, hinsert⟩
  rcases List.cons_eq_append_iff.1 heq with ⟨rfl, hcons⟩ | ⟨before, rfl, rfl⟩
  · cases hcons
    exact absurd (h.symm.trans hinsert) nofun
  · rw [insertEach_cons_of_error h] at hbefore
    cases hbefore

theorem inserts_cons_iff {s : Source} {p : Published} (h : s.bind (r.insert other) = .ok (r', p)) :
    r.Inserts ((other, s) :: offers) name ↔ name = other ∨ r'.Inserts offers name := by
  constructor
  · rintro ⟨before, source, behind, n, q, heq, hbefore, hinsert⟩
    rcases List.cons_eq_append_iff.1 heq with ⟨rfl, hcons⟩ | ⟨before, rfl, rfl⟩
    · cases hcons
      exact .inl rfl
    · rw [insertEach_cons_of_ok h] at hbefore hinsert
      obtain ⟨k, hk, -⟩ := map_eq_ok_iff.1 hbefore
      exact .inr ⟨before, source, behind, k, q, rfl, hk, hinsert⟩
  · rintro (rfl | ⟨before, source, behind, n, q, rfl, hbefore, hinsert⟩)
    · obtain _ | source := s
      · cases h
      · exact ⟨[], source, offers, 0, (r', p), rfl, rfl, h⟩
    · refine ⟨(other, s) :: before, source, behind, n + 1, q, rfl, ?_, ?_⟩
      · rw [insertEach_cons_of_ok h, hbefore]
        rfl
      · rw [insertEach_cons_of_ok h]
        exact hinsert

theorem mem_names_insert_iff {q : Catalog × Published} (h : r.insert other source = .ok q) :
    name ∈ q.1.names ↔ name = other ∨ name ∈ r.names := by
  rcases insert_eq_ok_cases h with ⟨heq, hget, -⟩ | ⟨t, ht, rfl⟩
  · rw [heq, or_iff_right_of_imp]
    rintro rfl
    exact mem_names_iff.2 ⟨q.2, hget⟩
  · obtain ⟨ns, -, rfl⟩ := Template.ofSource_eq_ok_iff.1 ht
    exact Dictionary.mem_keys_insert

/-- After a load there are the names from before, and those under which it has inserted sources with
success. -/
theorem mem_names_insertEach_iff :
    name ∈ (r.insertEach offers).1.names ↔ r.Inserts offers name ∨ name ∈ r.names := by
  induction offers generalizing r with
  | nil => exact (or_iff_right not_inserts_nil).symm
  | cons offer offers ih =>
    obtain ⟨other, s⟩ := offer
    cases hinsert : s.bind (r.insert other) with
    | error fault =>
      rw [insertEach_cons_of_error hinsert]
      exact (or_iff_right (not_inserts_cons hinsert)).symm
    | ok q =>
      obtain ⟨r', p⟩ := q
      obtain _ | source := s
      · cases hinsert
      · rw [insertEach_cons_of_ok hinsert, ih, inserts_cons_iff hinsert, or_assoc, or_left_comm]
        exact or_congr_right (mem_names_insert_iff hinsert)

/-- After an operation there are the names under which it has inserted sources with success, and the
names from before, without one that it removes. -/
theorem mem_names_apply_iff :
    name ∈ (op.apply r).names ↔
      r.Inserts op.offers name ∨ name ∈ r.names ∧ op ≠ .remove name := by
  by_cases hremove : ∃ other, op = .remove other
  · obtain ⟨other, rfl⟩ := hremove
    have hoffers : ¬ r.Inserts (Operation.remove other).offers name := not_inserts_nil
    rw [or_iff_right hoffers, and_comm]
    refine Dictionary.mem_keys_erase.trans (and_congr_left' ?_)
    rw [Ne, Ne, Operation.remove.injEq, eq_comm]
  · have hload : ∀ other, op ≠ .remove other := fun other hother => hremove ⟨other, hother⟩
    rw [names, templates_apply hload, and_iff_left (hload name)]
    exact mem_names_insertEach_iff

/-! ### Names along a run -/

/-- At some moment of a run a name was inserted with success, and it has not been removed since. -/
def Keeps (ops : List Operation) (name : String) : Prop :=
  ∃ before op behind, ops = before ++ op :: behind ∧ (run before).Inserts op.offers name ∧
    .remove name ∉ behind

theorem not_keeps_nil : ¬ Keeps [] name := by
  rintro ⟨before, op, behind, heq, -⟩
  simp at heq

/-- One more operation inserts a name, or leaves it if it does not remove it. -/
theorem keeps_append_singleton_iff :
    Keeps (ops ++ [op]) name ↔
      (run ops).Inserts op.offers name ∨ Keeps ops name ∧ op ≠ .remove name := by
  constructor
  · rintro ⟨before, op', behind, heq, hinserts, hbehind⟩
    rcases List.eq_nil_or_concat behind with rfl | ⟨behind, last, rfl⟩
    · obtain ⟨rfl, hlast⟩ := List.append_inj' heq rfl
      cases hlast
      exact .inl hinserts
    · rw [List.concat_eq_append] at heq hbehind
      rw [← List.cons_append, ← List.append_assoc] at heq
      obtain ⟨rfl, hlast⟩ := List.append_inj' heq rfl
      cases hlast
      rw [List.mem_append, List.mem_singleton, not_or] at hbehind
      exact .inr ⟨⟨before, op', behind, rfl, hinserts, hbehind.1⟩, Ne.symm hbehind.2⟩
  · rintro (hinserts | ⟨⟨before, op', behind, rfl, hinserts, hbehind⟩, hop⟩)
    · exact ⟨ops, op, [], rfl, hinserts, List.not_mem_nil⟩
    · refine ⟨before, op', behind ++ [op], by simp, hinserts, ?_⟩
      rw [List.mem_append, List.mem_singleton, not_or]
      exact ⟨hbehind, Ne.symm hop⟩

theorem mem_names_run_iff : name ∈ (run ops).names ↔ Keeps ops name := by
  induction ops using List.reverseRecOn with
  | nil => exact iff_of_false List.not_mem_nil not_keeps_nil
  | append_singleton ops op ih =>
    rw [run_append, keeps_append_singleton_iff, ← ih]
    exact mem_names_apply_iff

/-- **The names after a run.** They are in strictly ascending order of their bytes, and they are the
names that were inserted with success, alone or inside a load, and have not been removed since.
These are the names that the catalog contains, those that have a template, and those that are
counted. A source that cannot be inserted does not change them. -/
theorem pairwise_names_and_mem_names_iff_keeps (ops : List Operation) :
    (run ops).names.Pairwise (fun a b => Text.bytes a < Text.bytes b) ∧ (run ops).names.Nodup ∧
      (∀ name, name ∈ (run ops).names ↔ Keeps ops name) ∧
      (∀ name, (run ops).contains name = true ↔ name ∈ (run ops).names) ∧
      (∀ name, (∃ p, (run ops).get? name = some p) ↔ name ∈ (run ops).names) ∧
      (run ops).size = (run ops).names.length ∧ ((run ops).isEmpty = true ↔ (run ops).size = 0) ∧
      ∀ name source fault, (run ops).insert name source = .error fault →
        (run (ops ++ [.insert name source])).names = (run ops).names := by
  have hascending := ascending_run ops
  refine ⟨hascending.imp Text.lt_iff_bytes_lt.1, hascending.nodup, fun name => mem_names_run_iff,
    fun name => Dictionary.find?_isSome_iff, fun name => mem_names_iff.symm,
    (List.length_map _).symm, ?_, ?_⟩
  · rw [isEmpty, size, List.isEmpty_iff_length_eq_zero]
  · intro name source fault hinsert
    rw [run_append]
    exact congrArg names (apply_insert_of_error hinsert)

/-- A load that stops at its second source, a name that is removed and one that comes back, and a
source that cannot be inserted. -/
theorem pairwise_names_and_mem_names_iff_keeps_of_stopped_load :
    let assets := [("é", "E"), ("z", s!"<% {closeBrace} %>"), ("d", "D")]
    let ops : List Operation := [.insert "c" "C", .insert "b" "B", .insertAll assets, .remove "b",
      .insert "a" "A", .remove "a", .insert "a" "A"]
    (run ops).names = ["a", "c", "é"] ∧ (∀ name ∈ ["a", "c", "é"], Keeps ops name) ∧
      (∀ name ∈ ["b", "d", "z"], ¬ Keeps ops name) ∧
      (run ops).insert "z" s!"<% {closeBrace} %>" =
        .error (Fault.inTemplate (.brackets .strayClose) "z") ∧
      (run (ops ++ [.insert "z" s!"<% {closeBrace} %>"])).names = (run ops).names := by
  intro assets ops
  obtain ⟨-, -, hnames, -, -, -, -, hfault⟩ := pairwise_names_and_mem_names_iff_keeps ops
  have hlist : (run ops).names = ["a", "c", "é"] := by decide +kernel
  have hcurrent : (run ops).current? "z" (Text.digest s!"<% {closeBrace} %>") = none :=
    Option.isNone_iff_eq_none.1 (by decide +kernel)
  have hinsert : (run ops).insert "z" s!"<% {closeBrace} %>" =
      .error (Fault.inTemplate (.brackets .strayClose) "z") := by
    rw [insert, hcurrent, Template.ofSource_of_error Body.ofSource_stray_close]
    rfl
  refine ⟨hlist, fun name hname => ?_, fun name hname => ?_, hinsert, hfault _ _ _ hinsert⟩
  · rw [← hnames, hlist]
    exact hname
  · rw [← hnames, hlist]
    revert name
    decide

end Stencil.Catalog
