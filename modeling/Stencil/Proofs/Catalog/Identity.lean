import Stencil.Proofs.Catalog.Steps

/-!
# Identity of published templates

A published template keeps its stamp for as long as it is published, and no other template gets it.
So two moments of a run have the same template under a name when nothing has happened to the name in
between: the name has not been removed, and no source has been inserted under it with success but
the one that was published already. A source that goes away and comes back has the template that it
had, under another stamp.

The moments are those of the steps of the run, inside its loads too. Whether a step changes anything
depends on the source that is published just before it, so the case distinction is made along the
steps: as long as they spare the name, its template stays; the first step that does not spare it
takes it out or publishes a new one; and from there on every template of the name is a later one.

## Main definitions

* `Stencil.Catalog.Spares`: a step that leaves the template of a name in place.
* `Stencil.Catalog.Undisturbed`: two moments with such steps only between them.
* `Stencil.Catalog.Since`: a name whose template is not older than a stamp.

## Main results

* `Stencil.Catalog.nextStamp_le_and_get?_apply_cases`: what a step does to a name.
* `Stencil.Catalog.undisturbed_or_since`: what happens to a name between two moments.
* `Stencil.Catalog.stamp_eq_iff_undisturbed`: when the templates of two moments are the same one.
-/

namespace Stencil

namespace Catalog

/-! ### Steps that spare a name -/

/-- A step after some others leaves the template of a name in place: it does not remove the name,
and if it inserts a source under the name with success, this is the source that is published. -/
def Spares (name : String) (before : List Operation) : Operation → Prop
  | .remove other => other ≠ name
  | .insert other source => other = name → (∃ q, (run before).insert name source = .ok q) →
    Sources.run before name = some source
  | _ => True

/-- All steps from one moment to another spare a name. -/
def Undisturbed (name : String) (before between : List Operation) : Prop :=
  ∀ front op behind, between = front ++ op :: behind → Spares name (before ++ front) op

section

variable {name : String} {op : Operation} {before between front behind : List Operation}

theorem undisturbed_nil (name : String) (before : List Operation) : Undisturbed name before [] := by
  intro front op behind h
  simp at h

theorem undisturbed_cons_iff :
    Undisturbed name before (op :: between) ↔
      Spares name before op ∧ Undisturbed name (before ++ [op]) between := by
  constructor
  · intro h
    refine ⟨by simpa using h [] op between rfl, fun front op' behind heq => ?_⟩
    simpa using h (op :: front) op' behind (by rw [heq, List.cons_append])
  · rintro ⟨hop, h⟩ front op' behind heq
    rcases List.cons_eq_append_iff.1 heq with ⟨rfl, hcons⟩ | ⟨front, rfl, rfl⟩
    · cases hcons
      rwa [List.append_nil]
    · simpa using h front op' behind rfl

theorem Undisturbed.of_append (h : Undisturbed name before (front ++ behind)) :
    Undisturbed name before front := by
  intro front' op behind' heq
  exact h front' op (behind' ++ behind) (by rw [heq, List.append_assoc, List.cons_append])

end

/-! ### One step -/

variable {r : Catalog} {name : String} {op : Operation} {k : Nat} {p q : Published}
  {sources : List String} {before between : List Operation}

/-- A step leaves the template of a name in place, or takes it out, or publishes one with the next
stamp. -/
theorem nextStamp_le_and_get?_apply_cases (h : op.IsStep) (r : Catalog) (name : String) :
    r.nextStamp ≤ (op.apply r).nextStamp ∧
      ((op.apply r).get? name = r.get? name ∨ (op.apply r).get? name = none ∨
        ∃ t, (op.apply r).get? name = some ⟨t, r.nextStamp⟩ ∧
          r.nextStamp < (op.apply r).nextStamp) := by
  cases op with
  | insert other source =>
    cases hinsert : r.insert other source with
    | error fault =>
      rw [apply_insert_of_error hinsert]
      exact ⟨Nat.le_refl _, Or.inl rfl⟩
    | ok q =>
      rw [apply_insert_of_ok hinsert]
      rcases insert_eq_ok_cases hinsert with ⟨heq, -, -⟩ | ⟨t, -, rfl⟩
      · simp [heq]
      · refine ⟨Nat.le_succ _, ?_⟩
        simp only [get?_publish]
        split
        · exact Or.inr (Or.inr ⟨t, rfl, Nat.lt_succ_self _⟩)
        · exact Or.inl rfl
  | remove other =>
    refine ⟨Nat.le_refl _, ?_⟩
    simp only [Operation.apply, get?_remove]
    split
    · exact Or.inr (Or.inl rfl)
    · exact Or.inl rfl
  | setDefaultLayout layout => exact ⟨Nat.le_refl _, Or.inl rfl⟩
  | _ => cases h

/-- A step that spares a name leaves its template in place. -/
theorem get?_apply_of_spares (hpublishes : (run before).Publishes (Sources.run before))
    (hstep : op.IsStep) (h : Spares name before op) :
    (op.apply (run before)).get? name = (run before).get? name := by
  cases op with
  | insert other source =>
    cases hinsert : (run before).insert other source with
    | error fault => rw [apply_insert_of_error hinsert]
    | ok q =>
      rw [apply_insert_of_ok hinsert]
      by_cases hname : other = name
      · -- The source is the published one, so it is not read again.
        subst hname
        obtain ⟨p, ns, hp, -, htemplate⟩ := hpublishes.exists_get?_eq (h rfl ⟨q, hinsert⟩)
        have hcurrent : (run before).current? other (Text.digest source) = some p := by
          rw [current?, hp, Option.filter_some, htemplate]
          simp
        rw [insert, hcurrent] at hinsert
        cases hinsert
        rfl
      · exact get?_insert_of_ne hinsert (Ne.symm hname)
  | remove other => rw [Operation.apply, get?_remove, if_neg h]
  | setDefaultLayout layout => rfl
  | _ => cases hstep

/-! ### Stamps -/

/-- The templates of a catalog have stamps that have been given out. -/
def Stamped (r : Catalog) : Prop :=
  ∀ name p, r.get? name = some p → p.stamp < r.nextStamp

/-- A template that is published under a name has a stamp that was given out when this stamp was the
next one, or later. -/
def Since (r : Catalog) (name : String) (k : Nat) : Prop :=
  k ≤ r.nextStamp ∧ ∀ p, r.get? name = some p → k ≤ p.stamp

theorem stamped_empty : Catalog.empty.Stamped :=
  nofun

theorem Stamped.apply (h : r.Stamped) (hop : op.IsStep) : (op.apply r).Stamped := by
  intro name p hp
  obtain ⟨hle, heq | hnone | ⟨t, hsome, hlt⟩⟩ := nextStamp_le_and_get?_apply_cases hop r name
  · exact Nat.lt_of_lt_of_le (h name p (heq ▸ hp)) hle
  · rw [hnone] at hp
    cases hp
  · rw [hsome] at hp
    cases hp
    exact hlt

theorem Since.apply (h : r.Since name k) (hop : op.IsStep) : (op.apply r).Since name k := by
  obtain ⟨hle, heq | hnone | ⟨t, hsome, -⟩⟩ := nextStamp_le_and_get?_apply_cases hop r name
  all_goals refine ⟨Nat.le_trans h.1 hle, fun p hp => ?_⟩
  · exact h.2 p (heq ▸ hp)
  · rw [hnone] at hp
    cases hp
  · rw [hsome] at hp
    cases hp
    exact h.1

/-- A step that does not spare a name leaves no template under it that is older than this step. -/
theorem since_of_not_spares (hpublishes : (run before).Publishes (Sources.run before))
    (hdigest : ∀ s, Sources.run before name = some s → ∀ e ∈ op.attempts,
      Text.digest s = Text.digest e.2 → s = e.2)
    (h : ¬ Spares name before op) :
    (op.apply (run before)).Since name (run before).nextStamp := by
  cases op with
  | insert other source =>
    simp only [Spares, Classical.not_imp] at h
    obtain ⟨rfl, ⟨q, hinsert⟩, hchanged⟩ := h
    rw [apply_insert_of_ok hinsert]
    rcases insert_eq_ok_cases hinsert with ⟨-, hget, hsame⟩ | ⟨t, ht, rfl⟩
    · -- The source would be taken for the published one, which has another digest.
      obtain ⟨s, hs, hread⟩ := hpublishes.exists_eq_some hget
      obtain ⟨ns, -, htemplate⟩ := Template.ofSource_eq_ok_iff.1 hread
      rw [htemplate] at hsame
      obtain rfl : s = source :=
        hdigest s hs (other, source) (by simp [Operation.attempts_insert]) hsame
      exact absurd hs hchanged
    · refine ⟨Nat.le_succ _, fun p hp => ?_⟩
      obtain ⟨ns, -, rfl⟩ := Template.ofSource_eq_ok_iff.1 ht
      rw [get?_publish, if_pos rfl] at hp
      cases hp
      exact Nat.le_refl _
  | remove other =>
    obtain rfl : other = name := Classical.not_not.1 h
    refine ⟨Nat.le_refl _, fun p hp => ?_⟩
    rw [Operation.apply, get?_remove, if_pos rfl] at hp
    cases hp
  | _ => exact absurd trivial h

/-! ### Several steps -/

theorem Stamped.foldl {ops : List Operation} (h : r.Stamped) (hops : ∀ op ∈ ops, op.IsStep) :
    (ops.foldl Operation.apply r).Stamped :=
  List.foldlRecOn (motive := Stamped) ops Operation.apply h
    fun _ h op hop => h.apply (hops op hop)

theorem Since.foldl {ops : List Operation} (h : r.Since name k) (hops : ∀ op ∈ ops, op.IsStep) :
    (ops.foldl Operation.apply r).Since name k :=
  List.foldlRecOn (motive := fun r => r.Since name k) ops Operation.apply h
    fun _ h op hop => h.apply (hops op hop)

section

variable (hdigest : Text.Distinguishes sources) (hsteps : ∀ op ∈ before ++ between, op.IsStep)
  (hsources : attempted (before ++ between) ⊆ sources) (hp : (run before).get? name = some p)

include hdigest hsteps hsources hp

/-- From a moment with a template under a name on: either nothing happens to the name and the
template stays, or something does, and any template of the name is a later one. -/
theorem undisturbed_or_since :
    (Undisturbed name before between ∧ (run (before ++ between)).get? name = some p) ∨
      ¬ Undisturbed name before between ∧
        ∃ k, p.stamp < k ∧ (run (before ++ between)).Since name k := by
  induction between generalizing before with
  | nil => exact Or.inl ⟨undisturbed_nil name before, by rwa [List.append_nil]⟩
  | cons op between ih =>
    have hassoc : before ++ op :: between = (before ++ [op]) ++ between := by simp
    have hstep : op.IsStep := hsteps op (by simp)
    have hbefore : attempted before ⊆ sources := fun s hs =>
      hsources (by rw [attempted_append]; exact List.mem_append_left _ hs)
    obtain ⟨hpublishes, hwithin⟩ := publishes_run hdigest hbefore
    rw [undisturbed_cons_iff, hassoc]
    by_cases hspares : Spares name before op
    · -- The template is still there, and the rest of the steps decides.
      have hget : (run (before ++ [op])).get? name = some p := by
        rw [run_append]
        exact (get?_apply_of_spares hpublishes hstep hspares).trans hp
      rw [hassoc] at hsteps hsources
      simpa [hspares] using ih hsteps hsources hget
    · -- From here on every template of the name is a new one.
      have hattempts : ∀ e ∈ op.attempts, e.2 ∈ sources := fun e he =>
        hsources (mem_attempted_iff.2 ⟨op, by simp, e, he, rfl⟩)
      have hsince := since_of_not_spares hpublishes
        (fun s hs e he => hdigest s (hwithin name s hs) e.2 (hattempts e he)) hspares
      have hstamped : (run before).Stamped :=
        stamped_empty.foldl fun op hop => hsteps op (List.mem_append_left _ hop)
      refine Or.inr ⟨fun h => hspares h.1, _, hstamped name p hp, ?_⟩
      rw [run_append, run_append]
      exact hsince.foldl fun op' hop' => hsteps op' (by simp [hop'])

/-- A template stays under its name for as long as nothing happens to the name. -/
theorem Undisturbed.get?_eq (h : Undisturbed name before between) :
    (run (before ++ between)).get? name = some p := by
  rcases undisturbed_or_since hdigest hsteps hsources hp with ⟨-, hget⟩ | ⟨hdisturbed, -⟩
  · exact hget
  · exact absurd h hdisturbed

/-- When something has happened to a name, its template has a later stamp. -/
theorem stamp_lt_of_not_undisturbed (h : ¬ Undisturbed name before between)
    (hq : (run (before ++ between)).get? name = some q) : p.stamp < q.stamp := by
  rcases undisturbed_or_since hdigest hsteps hsources hp with ⟨hundisturbed, -⟩ | ⟨-, k, hlt, hk⟩
  · exact absurd hundisturbed h
  · exact Nat.lt_of_lt_of_le hlt (hk.2 q hq)

end

/-! ### Two moments -/

/-- Templates of one name that were read from one source are equal. -/
theorem Publishes.template_eq {r r' : Catalog} {m m' : Sources} (h : r.Publishes m)
    (h' : r'.Publishes m') (hp : r.get? name = some p) (hq : r'.get? name = some q)
    (heq : m name = m' name) : p.template = q.template := by
  obtain ⟨s, hs, hread⟩ := h.exists_eq_some hp
  obtain ⟨s', hs', hread'⟩ := h'.exists_eq_some hq
  obtain rfl : s = s' := Option.some.inj (hs.symm.trans (heq.trans hs'))
  exact Except.ok.inj (hread.symm.trans hread')

/-- A template that stays published was read from the source that stays under its name. -/
theorem Publishes.eq_of_template_eq {r r' : Catalog} {m m' : Sources} (h : r.Publishes m)
    (h' : r'.Publishes m') (hm : m.Within sources) (hm' : m'.Within sources)
    (hdigest : Text.Distinguishes sources) (hp : r.get? name = some p) (hq : r'.get? name = some q)
    (heq : p.template = q.template) : m name = m' name := by
  obtain ⟨s, hs, hread⟩ := h.exists_eq_some hp
  obtain ⟨s', hs', hread'⟩ := h'.exists_eq_some hq
  obtain ⟨ns, -, ht⟩ := Template.ofSource_eq_ok_iff.1 hread
  obtain ⟨ns', -, ht'⟩ := Template.ofSource_eq_ok_iff.1 hread'
  have hsame : Text.digest s = Text.digest s' :=
    congrArg Template.digest (ht.symm.trans (heq.trans ht'))
  rw [hs, hs', hdigest s (hm name s hs) s' (hm' name s' hs') hsame]

/-- **Identity of published templates.** Let the digests tell the sources of a run from each other.
The steps of the run pass through the moments between its operations, and a step that inserts a
malformed source changes nothing. Two moments have the same template under a name exactly when
nothing has happened to the name in between: it was not removed, and no source was inserted under it
with success but the one that was published just before. A source that is published at both moments
has equal templates there, though not the same one if another source, or none, was published in
between. A template is rendered as its catalog renders it at the moment that it is taken from. -/
theorem stamp_eq_iff_undisturbed (ops : List Operation)
    (hdigest : Text.Distinguishes (attempted ops)) :
    (∀ done rest, ops = done ++ rest → run (done.flatMap Operation.steps) = run done) ∧
    (∀ before name source fault behind,
      ops.flatMap Operation.steps = before ++ .insert name source :: behind →
        Body.ofSource source = .error fault →
          (run before).insert name source = .error (fault.inTemplate name) ∧
          run (before ++ [.insert name source]) = run before) ∧
    ∀ before between behind name p q,
      ops.flatMap Operation.steps = before ++ between ++ behind →
        (run before).get? name = some p → (run (before ++ between)).get? name = some q →
          (p.stamp = q.stamp ↔ Undisturbed name before between) ∧
          (p.stamp = q.stamp → p = q) ∧
          (Sources.run before name = Sources.run (before ++ between) name →
            p.template = q.template) ∧
          (∀ front back, between = front ++ back →
            Sources.run (before ++ front) name ≠ Sources.run before name → p.stamp ≠ q.stamp) ∧
          ∀ context, p.template.render context = (run before).render name context none := by
  have hmoment {front behind : List Operation}
      (h : ops.flatMap Operation.steps = front ++ behind) :
      (run front).Publishes (Sources.run front) ∧ (Sources.run front).Within (attempted ops) :=
    publishes_run hdigest (attempted_subset h)
  refine ⟨?_, ?_, ?_⟩
  · rintro done rest rfl
    refine run_flatMap_steps hdigest ?_
    rw [attempted_append]
    exact List.subset_append_left _ _
  · intro before name source fault behind hops hread
    obtain ⟨hpublishes, hwithin⟩ := hmoment hops
    have hsource : source ∈ attempted ops := by
      rw [← attempted_flatMap_steps, hops]
      exact mem_attempted_iff.2 ⟨.insert name source, by simp, (name, source),
        by simp [Operation.attempts_insert], rfl⟩
    have hinsert := hpublishes.insert_eq_error
      (fun s hs => hdigest s (hwithin name s hs) source hsource) hread
    rw [run_append]
    exact ⟨hinsert, apply_insert_of_error hinsert⟩
  · intro before between behind name p q hops hp hq
    have hmiddle {front back : List Operation} (hfront : between = front ++ back) :
        ops.flatMap Operation.steps = (before ++ front) ++ (back ++ behind) := by
      rw [hops, hfront]
      simp
    have hsteps {front back : List Operation} (hfront : between = front ++ back) (op : Operation)
        (hop : op ∈ before ++ front) : op.IsStep :=
      Operation.isStep_of_mem_flatMap_steps (hmiddle hfront ▸ List.mem_append_left _ hop)
    have hkept {front back : List Operation} (hfront : between = front ++ back)
        (h : Undisturbed name before front) : (run (before ++ front)).get? name = some p :=
      h.get?_eq hdigest (hsteps hfront) (attempted_subset (hmiddle hfront)) hp
    have hall : between = between ++ [] := (List.append_nil _).symm
    have hundisturbed (heq : p.stamp = q.stamp) : Undisturbed name before between := by
      refine Classical.byContradiction fun h => ?_
      exact Nat.ne_of_lt (stamp_lt_of_not_undisturbed hdigest (hsteps hall)
        (attempted_subset (hmiddle hall)) hp h hq) heq
    have hsame (h : Undisturbed name before between) : p = q :=
      Option.some.inj ((hkept hall h).symm.trans hq)
    obtain ⟨hpublishes, hwithin⟩ := hmoment (hops.trans (List.append_assoc ..))
    refine ⟨⟨hundisturbed, fun h => by rw [hsame h]⟩, fun heq => hsame (hundisturbed heq),
      hpublishes.template_eq (hmoment hops).1 hp hq, ?_, fun context => ?_⟩
    · rintro front back hfront hchanged heq
      have hget := hkept hfront (hfront ▸ hundisturbed heq).of_append
      obtain ⟨hpublishes', hwithin'⟩ := hmoment (hmiddle hfront)
      exact hchanged
        (hpublishes'.eq_of_template_eq hpublishes hwithin' hwithin hdigest hget hp rfl)
    · rw [render_none_of_eq_some hp]
      rfl

/-- A source that is loaded again, then a malformed one, then another one and the first one again,
in a file. -/
theorem stamp_eq_iff_undisturbed_of_reload :
    let disk := (FileTree.directory [("t", .directory [("a.html", .ofText "A")])]).disk
    let before : List Operation := [.insert "a" "A"]
    let kept : List Operation :=
      [.insert "b" "B", .insert "a" "A", .insert "a" s!"<% {closeBrace} %>"]
    let changed : List Operation := [.insert "a" "B", .insert "a" "A"]
    let ops : List Operation := [.insert "a" "A",
      .insertAll [("b", "B"), ("a", "A"), ("a", s!"<% {closeBrace} %>"), ("c", "C")],
      .insert "a" "B", .loadDirectory disk "t" "html"]
    Text.Distinguishes (attempted ops) ∧ run (before ++ kept ++ changed) = run ops ∧
      run (before ++ kept) = run (before ++ kept.dropLast) ∧
      ∃ p q s, (run before).get? "a" = some p ∧ (run (before ++ kept)).get? "a" = some q ∧
        (run ops).get? "a" = some s ∧ Undisturbed "a" before kept ∧ p = q ∧
        ¬ Undisturbed "a" before (kept ++ changed) ∧ p.template = s.template ∧
        p.stamp ≠ s.stamp ∧ p.template.render none = .ok "A" := by
  intro disk before kept changed ops
  have hdigest : Text.Distinguishes (attempted ops) := by decide +kernel
  have hsteps : ops.flatMap Operation.steps = before ++ kept ++ changed := by
    have hassets : (Operation.insertAll [("b", "B"), ("a", "A"), ("a", s!"<% {closeBrace} %>"),
        ("c", "C")]).attempts = [("b", "B"), ("a", "A"), ("a", s!"<% {closeBrace} %>")] := by
      decide +kernel
    have hfiles : (Operation.loadDirectory disk "t" "html").attempts = [("a", "A")] := by
      decide +kernel
    simp only [ops, List.flatMap_cons, Operation.steps, hassets, hfiles]
    rfl
  obtain ⟨hrun, hfault, hmoments⟩ := stamp_eq_iff_undisturbed ops hdigest
  have hops : run (before ++ kept ++ changed) = run ops :=
    hsteps ▸ hrun ops [] (List.append_nil _).symm
  have hp : ((run before).get? "a").map (·.stamp) = some 0 := by decide +kernel
  have hq : ((run (before ++ kept)).get? "a").map (·.stamp) = some 0 := by decide +kernel
  have hs : ((run ops).get? "a").map (·.stamp) = some 3 := by decide +kernel
  obtain ⟨p, hp, hpstamp⟩ := Option.map_eq_some_iff.1 hp
  obtain ⟨q, hq, hqstamp⟩ := Option.map_eq_some_iff.1 hq
  obtain ⟨s, hs, hsstamp⟩ := Option.map_eq_some_iff.1 hs
  have hne : p.stamp ≠ s.stamp := by omega
  obtain ⟨hkept, hsame, -, -, hrender⟩ :=
    hmoments before kept changed "a" p q hsteps hp hq
  obtain ⟨hchanged, -, htemplate, -, -⟩ :=
    hmoments before (kept ++ changed) [] "a" p s (by rw [hsteps]; rfl) hp
      (by rw [← List.append_assoc, hops]; exact hs)
  refine ⟨hdigest, hops, ?_, p, q, s, hp, hq, hs,
    hkept.1 (by omega), hsame (by omega), mt hchanged.2 hne, htemplate ?_, hne, ?_⟩
  · exact (hfault (before ++ kept.dropLast) "a" _ _ changed hsteps Body.ofSource_stray_close).2
  · decide +kernel
  · rw [hrender none]
    decide +kernel

end Catalog

end Stencil
