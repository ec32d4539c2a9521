import Stencil.Proofs.Catalog.Loading

/-!
# Steps of a run

A load publishes its sources one after the other, so a catalog has moments that lie inside a load.
An operation amounts to a list of steps: it inserts every source that it attempts, and configuring
without a fault sets the default layout behind them. As long as the digests tell the attempted
sources from each other, carrying out the steps of a run leaves the catalog that the run leaves, and
the moments of the steps are all the moments that the catalog goes through.

## Main definitions

* `Stencil.Operation.steps`: the steps of an operation.
* `Stencil.Operation.IsStep`: inserting, removing and setting the default layout.

## Main results

* `Stencil.Catalog.TellsApart.foldl_steps`: the steps of an operation leave what it leaves.
* `Stencil.Catalog.run_flatMap_steps`: so do the steps of a run.
* `Stencil.Catalog.attempted_flatMap_steps`: the steps attempt the same sources.
-/

namespace Stencil

/-! ### Steps -/

namespace Operation

/-- The operations that insert sources by name. -/
def inserts (entries : List (String × String)) : List Operation :=
  entries.map fun e => insert e.1 e.2

/-- The operation that sets a default layout, if one is given. -/
def layoutStep (layout : Option String) : List Operation :=
  (layout.map fun layout => setDefaultLayout (some layout)).toList

/-- The steps of an operation. A load inserts the sources that it attempts, and configuring goes on
to the default layout when all sources can be read. -/
def steps : Operation → List Operation
  | insertAll assets => inserts (insertAll assets).attempts
  | loadDirectory disk directory extension =>
    inserts (loadDirectory disk directory extension).attempts
  | configure disk settings =>
    inserts (configure disk settings).attempts ++
      if (settings.offers disk).all fun offer => (reading offer).isOk then
        layoutStep settings.layout
      else []
  | op => [op]

/-- An operation with one step. -/
def IsStep : Operation → Prop
  | insert _ _ | remove _ | setDefaultLayout _ => True
  | _ => False

theorem isStep_of_mem_inserts {op : Operation} {entries : List (String × String)}
    (h : op ∈ inserts entries) : op.IsStep := by
  obtain ⟨e, -, rfl⟩ := List.mem_map.1 h
  trivial

theorem isStep_of_mem_layoutStep {op : Operation} {layout : Option String}
    (h : op ∈ layoutStep layout) : op.IsStep := by
  cases layout with
  | none => cases h
  | some layout =>
    obtain rfl := List.mem_singleton.1 h
    trivial

theorem isStep_of_mem_steps {op op' : Operation} (h : op' ∈ op.steps) : op'.IsStep := by
  cases op with
  | insertAll assets => exact isStep_of_mem_inserts h
  | loadDirectory disk directory extension => exact isStep_of_mem_inserts h
  | configure disk settings =>
    rcases List.mem_append.1 h with h | h
    · exact isStep_of_mem_inserts h
    · split at h
      · exact isStep_of_mem_layoutStep h
      · cases h
  | _ =>
    obtain rfl := List.mem_singleton.1 h
    trivial

theorem isStep_of_mem_flatMap_steps {op : Operation} {ops : List Operation}
    (h : op ∈ ops.flatMap steps) : op.IsStep := by
  obtain ⟨op', -, hop⟩ := List.mem_flatMap.1 h
  exact isStep_of_mem_steps hop

/-- Inserting a source attempts this source. -/
theorem attempts_insert (name source : String) :
    (insert name source).attempts = [(name, source)] := by
  rw [attempts, offers]
  cases h : Body.ofSource source with
  | ok ns => rw [attempts_cons_of_ok h]; rfl
  | error fault => rw [attempts_cons_of_error h]

end Operation

namespace Catalog

/-! ### What the steps attempt -/

theorem attempted_append (ops ops' : List Operation) :
    attempted (ops ++ ops') = attempted ops ++ attempted ops' :=
  List.flatMap_append

theorem attempted_inserts (entries : List (String × String)) :
    attempted (Operation.inserts entries) = entries.map (·.2) := by
  simp only [attempted, Operation.inserts, List.flatMap_map, Operation.attempts_insert,
    List.map_cons, List.map_nil]
  exact List.map_eq_flatMap.symm

theorem attempted_layoutStep (layout : Option String) :
    attempted (Operation.layoutStep layout) = [] := by
  cases layout <;> rfl

theorem attempted_steps (op : Operation) : attempted op.steps = op.attempts.map (·.2) := by
  cases op with
  | insertAll assets => exact attempted_inserts _
  | loadDirectory disk directory extension => exact attempted_inserts _
  | configure disk settings =>
    rw [Operation.steps, attempted_append, attempted_inserts]
    split
    · rw [attempted_layoutStep, List.append_nil]
    · exact List.append_nil _
  | _ => exact List.flatMap_singleton ..

/-- The steps of a run attempt the sources that the run attempts. -/
theorem attempted_flatMap_steps (ops : List Operation) :
    attempted (ops.flatMap Operation.steps) = attempted ops := by
  induction ops with
  | nil => rfl
  | cons op ops ih =>
    rw [List.flatMap_cons, attempted_append, ih, attempted_steps]
    rfl

/-- Up to any of its steps, a run attempts no other sources. -/
theorem attempted_subset {ops front behind : List Operation}
    (h : ops.flatMap Operation.steps = front ++ behind) : attempted front ⊆ attempted ops := by
  rw [← attempted_flatMap_steps ops, h, attempted_append]
  exact List.subset_append_left _ _

/-! ### What the steps leave -/

variable {r : Catalog} {m : Sources} {sources : List String}

theorem foldl_layoutStep (r : Catalog) (layout : Option String) :
    (Operation.layoutStep layout).foldl Operation.apply r = r.setLayout? layout := by
  cases layout <;> rfl

/-- Inserting the attempted sources one after the other is loading. -/
theorem TellsApart.foldl_inserts {offers : List (String × Source)}
    (h : r.TellsApart (attempts offers)) :
    (Operation.inserts (attempts offers)).foldl Operation.apply r = (r.insertEach offers).1 := by
  induction offers generalizing r with
  | nil => rfl
  | cons offer offers ih =>
    obtain ⟨name, source⟩ := offer
    cases source with
    | error fault => rfl
    | ok source =>
      have hbind : (.ok source : Source).bind (r.insert name) = r.insert name source := rfl
      cases hread : Body.ofSource source with
      | error fault =>
        rw [attempts_cons_of_error hread] at h ⊢
        have hinsert := h.insert_eq_error (List.mem_singleton.2 rfl) hread
        rw [insertEach_cons_of_error (hbind.trans hinsert)]
        exact apply_insert_of_error hinsert
      | ok ns =>
        rw [attempts_cons_of_ok hread] at h ⊢
        obtain ⟨q, hinsert⟩ := exists_insert_eq_ok hread r name
        have happly : (Operation.insert name source).apply r = q.1 := apply_insert_of_ok hinsert
        rw [insertEach_cons_of_ok (hbind.trans hinsert), ← ih (h.insert hinsert), ← happly]
        rfl

theorem all_isOk_reading {entries : List (String × String)} (h : Faultless entries) :
    (assetOffers entries).all (fun offer => (reading offer).isOk) = true := by
  rw [assetOffers, List.all_map, List.all_eq_true]
  intro e he
  obtain ⟨ns, hns⟩ := h e he
  show (Template.ofSource e.1 e.2).isOk = true
  rw [Template.ofSource_of_ok hns]
  rfl

/-- The steps of an operation leave the catalog that the operation leaves. -/
theorem TellsApart.foldl_steps {op : Operation} (h : r.TellsApart op.attempts) :
    op.steps.foldl Operation.apply r = op.apply r := by
  have hinserts : (Operation.inserts op.attempts).foldl Operation.apply r =
      (r.insertEach op.offers).1 :=
    h.foldl_inserts
  cases op with
  | insertAll assets => exact hinserts
  | loadDirectory disk directory extension =>
    exact hinserts.trans (congrArg Prod.fst (loadDirectory_eq_insertEach ..).symm)
  | configure disk settings =>
    change r.TellsApart (attempts (settings.offers disk)) at h
    rw [Operation.steps, List.foldl_append, hinserts, Operation.apply, configure_eq_insertEach,
      Operation.offers]
    rcases faultless_or_exists_fault (settings.offers disk) with
      ⟨entries, heq, hread⟩ | ⟨entries, offer, behind, fault, heq, hread, hfault⟩
    · rw [heq, attempts_of_faultless hread] at h
      rw [heq, if_pos (all_isOk_reading hread), foldl_layoutStep,
        (h.insertEach_of_faultless hread).answer_eq]
    · have hall : (settings.offers disk).all (fun offer => (reading offer).isOk) = false := by
        rw [heq, List.all_append, List.all_cons, hfault]
        simp [Except.isOk, Except.toBool]
      rw [heq] at h
      rw [hall, heq, (h.insertEach_of_fault hread hfault).answer_eq]
      rfl
  | _ => rfl

/-- The steps of several operations leave the catalog that the operations leave. -/
theorem Publishes.foldl_flatMap_steps (h : r.Publishes m) (hm : m.Within sources)
    (hdigest : Text.Distinguishes sources) {ops : List Operation}
    (hops : ∀ op ∈ ops, ∀ e ∈ op.attempts, e.2 ∈ sources) :
    (ops.flatMap Operation.steps).foldl Operation.apply r = ops.foldl Operation.apply r := by
  induction ops generalizing r m with
  | nil => rfl
  | cons op ops ih =>
    obtain ⟨hop, hops⟩ := List.forall_mem_cons.1 hops
    rw [List.flatMap_cons, List.foldl_append, (h.tellsApart hm hdigest hop).foldl_steps,
      List.foldl_cons]
    exact ih (h.apply hm hdigest hop) (hm.after hop) hops

/-- The steps of a run leave the catalog that the run leaves. -/
theorem run_flatMap_steps (hdigest : Text.Distinguishes sources) {ops : List Operation}
    (hops : attempted ops ⊆ sources) : run (ops.flatMap Operation.steps) = run ops := by
  have hempty : Sources.empty.Within sources := fun name s hs => nomatch hs
  refine publishes_empty.foldl_flatMap_steps hempty hdigest fun op hop e he => ?_
  exact hops (mem_attempted_iff.2 ⟨op, hop, e, he, rfl⟩)

end Catalog

end Stencil
