import Stencil.Proofs.Catalog.Operation

/-!
# Catalogs as maps from names to sources

A catalog keeps templates, and a source with the digest of the one that is published is not read
again. None of this can be seen from outside: as long as different sources have different digests,
a catalog is the plain map that has the last source without a fault under every name.

## Main definitions

* `Stencil.Sources`: maps from names to sources, with `Sources.insert` and `Sources.remove`.
* `Stencil.Sources.after`, `Stencil.Sources.run`: such a map after an operation and after a run.
* `Stencil.Catalog.Publishes`: a catalog whose templates are those of the sources of a map.
* `Stencil.Catalog.Holds`: a catalog with the template of a source under a name.
* `Stencil.Text.Distinguishes`: different sources with different digests.

## Main results

* `Stencil.Catalog.Publishes.insert_eq`: inserting answers as reading does.
* `Stencil.Catalog.Publishes.apply`, `Stencil.Catalog.publishes_run`: every operation keeps the
  templates those of the sources, and so does a run.
* `Stencil.Catalog.run_refines_sources`: what can be seen of a catalog after a run.
-/

namespace Stencil

/-- The digests tell the given texts from each other. -/
def Text.Distinguishes (sources : List String) : Prop :=
  ∀ s ∈ sources, ∀ t ∈ sources, digest s = digest t → s = t

instance (sources : List String) : Decidable (Text.Distinguishes sources) :=
  inferInstanceAs (Decidable (∀ s ∈ sources, ∀ t ∈ sources,
    Text.digest s = Text.digest t → s = t))

/-! ### Maps from names to sources -/

/-- The source of every name that has one. -/
abbrev Sources := String → Option String

namespace Sources

/-- No name has a source. -/
def empty : Sources := fun _ => none

/-- The sources with one under a name, unless it has a fault. -/
def insert (m : Sources) (name source : String) : Sources :=
  match Body.ofSource source with
  | .ok _ => fun other => if name = other then some source else m other
  | .error _ => m

/-- The sources without that of a name. -/
def remove (m : Sources) (name : String) : Sources :=
  fun other => if name = other then none else m other

/-- The sources with some more, one after the other. -/
def insertEach (m : Sources) (entries : List (String × String)) : Sources :=
  entries.foldl (fun m e => m.insert e.1 e.2) m

/-- The sources after an operation. -/
def after (m : Sources) : Operation → Sources
  | .remove name => m.remove name
  | op => m.insertEach op.attempts

/-- The sources after a sequence of operations. -/
def run (ops : List Operation) : Sources :=
  ops.foldl after empty

/-- All sources of the map are in the list. -/
def Within (m : Sources) (sources : List String) : Prop :=
  ∀ name source, m name = some source → source ∈ sources

theorem insert_apply_of_ok {source : String} {ns : Body} (h : Body.ofSource source = .ok ns)
    (m : Sources) (name other : String) :
    m.insert name source other = if name = other then some source else m other := by
  rw [insert, h]

theorem insert_of_error {source : String} {fault : Fault} (h : Body.ofSource source = .error fault)
    (m : Sources) (name : String) : m.insert name source = m := by
  rw [insert, h]

theorem insertEach_cons (m : Sources) (name source : String) (entries : List (String × String)) :
    m.insertEach ((name, source) :: entries) = (m.insert name source).insertEach entries := rfl

theorem after_of_ne_remove {op : Operation} (hop : ∀ name, op ≠ .remove name) (m : Sources) :
    m.after op = m.insertEach op.attempts := by
  cases op with
  | remove name => exact absurd rfl (hop name)
  | _ => rfl

/-! ### Sources of a map -/

namespace Within

variable {m : Sources} {sources : List String}

theorem insert (h : m.Within sources) (name : String) {source : String}
    (hsource : source ∈ sources) : (m.insert name source).Within sources := by
  intro other s hs
  cases hread : Body.ofSource source with
  | error fault =>
    rw [insert_of_error hread] at hs
    exact h other s hs
  | ok ns =>
    rw [insert_apply_of_ok hread] at hs
    split at hs
    · exact Option.some.inj hs ▸ hsource
    · exact h other s hs

theorem insertEach (h : m.Within sources) {entries : List (String × String)}
    (hentries : ∀ e ∈ entries, e.2 ∈ sources) : (m.insertEach entries).Within sources := by
  induction entries generalizing m with
  | nil => exact h
  | cons e entries ih =>
    obtain ⟨he, hentries⟩ := List.forall_mem_cons.1 hentries
    exact ih (h.insert e.1 he) hentries

/-- An operation adds no sources but those that it attempts. -/
theorem after (h : m.Within sources) {op : Operation} (hop : ∀ e ∈ op.attempts, e.2 ∈ sources) :
    (m.after op).Within sources := by
  cases op with
  | remove name =>
    intro other s hs
    change (if name = other then none else m other) = some s at hs
    split at hs
    · cases hs
    · exact h other s hs
  | _ => exact h.insertEach hop

end Within

end Sources

/-! ### Templates of sources -/

/-- Once its items are known, a source is read from them. -/
theorem Body.ofSource_of_items {source : String} {items : List Item}
    (h : Item.ofSource source = .ok items) : Body.ofSource source = Body.ofItems items := by
  rw [ofSource, h]
  rfl

/-- A source that has no items has no body either. -/
theorem Body.ofSource_of_items_error {source : String} {fault : Fault}
    (h : Item.ofSource source = .error fault) : Body.ofSource source = .error fault := by
  rw [ofSource, h]
  rfl

theorem Template.ofSource_of_ok {source : String} {ns : Body} (h : Body.ofSource source = .ok ns)
    (name : String) : ofSource name source = .ok ⟨name, ns, Text.digest source⟩ := by
  rw [ofSource, h]

theorem Template.ofSource_of_error {source : String} {fault : Fault}
    (h : Body.ofSource source = .error fault) (name : String) :
    ofSource name source = .error (fault.inTemplate name) := by
  rw [ofSource, h]

/-- A source without a fault is that of one template. -/
theorem Template.ofSource_eq_ok_iff {name source : String} {t : Template} :
    ofSource name source = .ok t ↔
      ∃ ns, Body.ofSource source = .ok ns ∧ t = ⟨name, ns, Text.digest source⟩ := by
  cases h : Body.ofSource source with
  | error fault => simp [ofSource_of_error h]
  | ok ns => simp [ofSource_of_ok h, eq_comm]

namespace Catalog

/-- The published templates are those of the sources. -/
def Publishes (r : Catalog) (m : Sources) : Prop :=
  ∀ name, (r.get? name).map (fun p => .ok p.template) = (m name).map (Template.ofSource name)

variable {r : Catalog} {m : Sources} {name source : String}

theorem publishes_empty : Catalog.empty.Publishes Sources.empty :=
  fun _ => rfl

theorem Publishes.get?_eq_none_iff (h : r.Publishes m) : r.get? name = none ↔ m name = none := by
  rw [← Option.map_eq_none_iff, h name, Option.map_eq_none_iff]

/-- A source in the map has a template, which is published. -/
theorem Publishes.exists_get?_eq (h : r.Publishes m) (hm : m name = some source) :
    ∃ p ns, r.get? name = some p ∧ Body.ofSource source = .ok ns ∧
      p.template = ⟨name, ns, Text.digest source⟩ := by
  have hname := h name
  rw [hm, Option.map_some, Option.map_eq_some_iff] at hname
  obtain ⟨p, hp, ht⟩ := hname
  obtain ⟨ns, hns, htemplate⟩ := Template.ofSource_eq_ok_iff.1 ht.symm
  exact ⟨p, ns, hp, hns, htemplate⟩

/-- The template that is published under a name is that of a source. -/
def Holds (r : Catalog) (name source : String) : Prop :=
  ∃ p, r.get? name = some p ∧ Template.ofSource name source = .ok p.template

theorem Publishes.holds (h : r.Publishes m) (hm : m name = some source) : r.Holds name source := by
  obtain ⟨p, ns, hp, hns, htemplate⟩ := h.exists_get?_eq hm
  exact ⟨p, hp, Template.ofSource_eq_ok_iff.2 ⟨ns, hns, htemplate⟩⟩

/-- A published template is that of a source in the map. -/
theorem Publishes.exists_eq_some (h : r.Publishes m) {p : Published} (hp : r.get? name = some p) :
    ∃ source, m name = some source ∧ Template.ofSource name source = .ok p.template := by
  have hname := h name
  rw [hp, Option.map_some, eq_comm, Option.map_eq_some_iff] at hname
  exact hname

/-! ### One operation -/

/-- A source that keeps the published template is the one that this was read from. -/
theorem Publishes.eq_some_of_current? (h : r.Publishes m)
    (hdigest : ∀ s, m name = some s → Text.digest s = Text.digest source → s = source)
    {p : Published} (hp : r.current? name (Text.digest source) = some p) :
    m name = some source ∧ Template.ofSource name source = .ok p.template := by
  rw [current?, Option.filter_eq_some_iff] at hp
  obtain ⟨hget, hp⟩ := hp
  obtain ⟨s, hs, ht⟩ := h.exists_eq_some hget
  obtain ⟨ns, -, htemplate⟩ := Template.ofSource_eq_ok_iff.1 ht
  have hsame : Text.digest s = Text.digest source := by
    rw [htemplate] at hp
    simpa using hp
  obtain rfl := hdigest s hs hsame
  exact ⟨hs, ht⟩

/-- Inserting a source answers with the template that reading it gives, or with the same fault,
whether the source is read again or not. -/
theorem Publishes.insert_eq (h : r.Publishes m)
    (hdigest : ∀ s, m name = some s → Text.digest s = Text.digest source → s = source) :
    (r.insert name source).map (·.2.template) = Template.ofSource name source := by
  rw [Catalog.insert]
  cases hcurrent : r.current? name (Text.digest source) with
  | some p => exact (h.eq_some_of_current? hdigest hcurrent).2.symm
  | none => cases Template.ofSource name source <;> rfl

/-- Inserting a source puts it into the map. -/
theorem Publishes.insert (h : r.Publishes m)
    (hdigest : ∀ s, m name = some s → Text.digest s = Text.digest source → s = source)
    {q : Catalog × Published} (hq : r.insert name source = .ok q) :
    q.1.Publishes (m.insert name source) := by
  have hread := h.insert_eq hdigest
  rw [hq] at hread
  obtain ⟨ns, hns, htemplate⟩ := Template.ofSource_eq_ok_iff.1 hread.symm
  intro other
  rw [Sources.insert_apply_of_ok hns]
  rw [Catalog.insert] at hq
  cases hcurrent : r.current? name (Text.digest source) with
  | some p =>
    rw [hcurrent] at hq
    cases hq
    by_cases hname : name = other
    · subst hname
      rw [if_pos rfl, h name, (h.eq_some_of_current? hdigest hcurrent).1]
    · rw [if_neg hname, h other]
  | none =>
    rw [hcurrent, Template.ofSource_of_ok hns] at hq
    cases hq
    rw [get?_publish]
    by_cases hname : name = other
    · subst hname
      rw [if_pos rfl, if_pos rfl, Option.map_some, Option.map_some, Template.ofSource_of_ok hns]
      rfl
    · rw [if_neg hname, if_neg hname, h other]

/-- A source with a fault is not inserted. -/
theorem Publishes.insert_eq_error (h : r.Publishes m)
    (hdigest : ∀ s, m name = some s → Text.digest s = Text.digest source → s = source)
    {fault : Fault} (hread : Body.ofSource source = .error fault) :
    r.insert name source = .error (fault.inTemplate name) := by
  have hanswer := h.insert_eq hdigest
  rw [Template.ofSource_of_error hread] at hanswer
  cases hinsert : r.insert name source with
  | error e =>
    rw [hinsert] at hanswer
    rw [Except.error.inj hanswer]
  | ok q =>
    rw [hinsert] at hanswer
    cases hanswer

/-- A source without a fault is inserted. -/
theorem Publishes.exists_insert_eq_ok (h : r.Publishes m)
    (hdigest : ∀ s, m name = some s → Text.digest s = Text.digest source → s = source)
    {ns : Body} (hread : Body.ofSource source = .ok ns) :
    ∃ r' p, r.insert name source = .ok (r', p) ∧ r'.Publishes (m.insert name source) := by
  have hanswer := h.insert_eq hdigest
  rw [Template.ofSource_of_ok hread] at hanswer
  cases hinsert : r.insert name source with
  | error e =>
    rw [hinsert] at hanswer
    cases hanswer
  | ok q => exact ⟨q.1, q.2, rfl, h.insert hdigest hinsert⟩

/-- Loading puts what is attempted into the map. -/
theorem Publishes.insertEach {sources : List String} (h : r.Publishes m) (hm : m.Within sources)
    (hdigest : Text.Distinguishes sources) {offers : List (String × Source)}
    (hoffers : ∀ e ∈ attempts offers, e.2 ∈ sources) :
    (r.insertEach offers).1.Publishes (m.insertEach (attempts offers)) := by
  -- Loading stops where the attempts do: the catalog and the map go on past the same sources.
  induction offers generalizing r m with
  | nil => exact h
  | cons offer offers ih =>
    obtain ⟨name, source⟩ := offer
    cases source with
    | error fault => exact h
    | ok source =>
      have hbind : (.ok source : Source).bind (r.insert name) = r.insert name source := rfl
      cases hread : Body.ofSource source with
      | error fault =>
        rw [attempts_cons_of_error hread] at hoffers ⊢
        have hsource : source ∈ sources := hoffers (name, source) (by simp)
        have hinsert :=
          h.insert_eq_error (fun s hs => hdigest s (hm name s hs) source hsource) hread
        rw [insertEach_cons_of_error (hbind.trans hinsert), Sources.insertEach_cons,
          Sources.insert_of_error hread]
        exact h
      | ok ns =>
        rw [attempts_cons_of_ok hread] at hoffers ⊢
        obtain ⟨hsource, hoffers⟩ := List.forall_mem_cons.1 hoffers
        obtain ⟨r', p, hinsert, hr'⟩ :=
          h.exists_insert_eq_ok (fun s hs => hdigest s (hm name s hs) source hsource) hread
        rw [insertEach_cons_of_ok (hbind.trans hinsert), Sources.insertEach_cons]
        exact ih hr' (hm.insert name hsource) hoffers

/-- Every operation keeps the templates those of the sources. -/
theorem Publishes.apply {sources : List String} (h : r.Publishes m) (hm : m.Within sources)
    (hdigest : Text.Distinguishes sources) {op : Operation}
    (hop : ∀ e ∈ op.attempts, e.2 ∈ sources) : (op.apply r).Publishes (m.after op) := by
  by_cases hremove : ∃ name, op = .remove name
  · obtain ⟨name, rfl⟩ := hremove
    intro other
    change ((r.remove name).get? other).map _ = (if name = other then none else m other).map _
    rw [get?_remove]
    by_cases hname : name = other
    · rw [if_pos hname, if_pos hname]
      rfl
    · rw [if_neg hname, if_neg hname, h other]
  · have hload : ∀ name, op ≠ .remove name := fun name hname => hremove ⟨name, hname⟩
    intro name
    rw [get?_apply hload, Sources.after_of_ne_remove hload]
    exact h.insertEach hm hdigest hop name

/-! ### Runs -/

/-- All sources that a sequence of operations attempts to publish. -/
def attempted (ops : List Operation) : List String :=
  ops.flatMap fun op => op.attempts.map (·.2)

theorem mem_attempted_iff {ops : List Operation} :
    source ∈ attempted ops ↔ ∃ op ∈ ops, ∃ e ∈ op.attempts, e.2 = source := by
  simp [attempted]

/-- A run keeps the templates those of the sources. -/
theorem Publishes.foldl {sources : List String} (h : r.Publishes m) (hm : m.Within sources)
    (hdigest : Text.Distinguishes sources) {ops : List Operation}
    (hops : ∀ op ∈ ops, ∀ e ∈ op.attempts, e.2 ∈ sources) :
    (ops.foldl Operation.apply r).Publishes (ops.foldl Sources.after m) ∧
      (ops.foldl Sources.after m).Within sources := by
  induction ops generalizing r m with
  | nil => exact ⟨h, hm⟩
  | cons op ops ih =>
    obtain ⟨hop, hops⟩ := List.forall_mem_cons.1 hops
    exact ih (h.apply hm hdigest hop) (hm.after hop) hops

/-- From the catalog without templates on, the templates are those of the sources. -/
theorem publishes_run {sources : List String} (hdigest : Text.Distinguishes sources)
    {ops : List Operation} (hops : attempted ops ⊆ sources) :
    (run ops).Publishes (Sources.run ops) ∧ (Sources.run ops).Within sources := by
  have hempty : Sources.empty.Within sources := fun name s hs => nomatch hs
  refine publishes_empty.foldl hempty hdigest fun op hop e he => ?_
  exact hops (mem_attempted_iff.2 ⟨op, hop, e, he, rfl⟩)

/-! ### Rendering -/

theorem render_of_get?_eq_none (h : r.get? name = none) (context : Option Datum)
    (layout : Option String) : r.render name context layout = .error (.templateNotFound name) := by
  rw [render, lookup, h]
  rfl

/-- Without a layout, a template is rendered as its body is. -/
theorem render_none_of_eq_some {p : Published} (h : r.get? name = some p)
    (context : Option Datum) : r.render name context none = p.template.body.evaluate context := by
  rw [render, lookup, h, Body.evaluate]
  cases contextValue context with
  | error fault => rfl
  | ok root =>
    show ((p.template.body.render (.ofRoot root)).bind fun output => .ok output) =
      p.template.body.render (.ofRoot root)
    cases p.template.body.render (.ofRoot root) <;> rfl

/-- When a page and its layout are published, the context is read, the page is rendered against it,
and the layout with the output of the page under the name `yield`. -/
theorem render_some_of_eq_some {layout : String} {p l : Published} (hp : r.get? name = some p)
    (hl : r.get? layout = some l) (context : Option Datum) :
    r.render name context (some layout) =
      (contextValue context).bind fun root =>
        (p.template.renderValue root).bind fun output =>
          l.template.renderIn ((Scope.ofRoot root).bind yieldName (.str output)) := by
  rw [render, lookup, hp]
  show ((r.lookup layout).map some >>= fun l => _) = _
  rw [lookup, hl]
  rfl

/-! ### What can be seen of a catalog -/

/-- **A catalog is a map from names to sources.** After a run in which the digests tell the
attempted sources from each other, a name has a template exactly when it has a source; the template
is what reading that source gives, and without a layout it is rendered as such. Every insertion in
the run answers with what reading its source gives, template and fault alike. -/
theorem run_refines_sources (ops : List Operation)
    (hdigest : Text.Distinguishes (attempted ops)) :
    (∀ name, (run ops).get? name = none ↔ Sources.run ops name = none) ∧
    (∀ name source, Sources.run ops name = some source →
      ∃ p ns, (run ops).get? name = some p ∧ Body.ofSource source = .ok ns ∧
        p.template = ⟨name, ns, Text.digest source⟩ ∧
        ∀ context, (run ops).render name context none = ns.evaluate context) ∧
    (∀ name, Sources.run ops name = none →
      ∀ context, (run ops).render name context none = .error (.templateNotFound name)) ∧
    ∀ before name source after, ops = before ++ .insert name source :: after →
      ((run before).insert name source).map (·.2.template) = Template.ofSource name source := by
  obtain ⟨hrun, -⟩ := publishes_run hdigest (List.Subset.refl _)
  refine ⟨fun name => hrun.get?_eq_none_iff, ?_, ?_, ?_⟩
  · intro name source hsource
    obtain ⟨p, ns, hp, hns, htemplate⟩ := hrun.exists_get?_eq hsource
    refine ⟨p, ns, hp, hns, htemplate, fun context => ?_⟩
    rw [render_none_of_eq_some hp, htemplate]
  · intro name hname context
    exact render_of_get?_eq_none (hrun.get?_eq_none_iff.2 hname) context none
  · -- The catalog that a source is inserted into comes from a shorter run.
    rintro before name source after rfl
    have hbefore : attempted before ⊆ attempted (before ++ .insert name source :: after) := by
      intro s hs
      rw [attempted, List.flatMap_append]
      exact List.mem_append_left _ hs
    obtain ⟨hpublishes, hwithin⟩ := publishes_run hdigest hbefore
    have hsource : source ∈ attempted (before ++ .insert name source :: after) := by
      refine mem_attempted_iff.2 ⟨.insert name source, by simp, (name, source), ?_, rfl⟩
      cases hread : Body.ofSource source with
      | error fault => simp [Operation.attempts, Operation.offers, attempts_cons_of_error hread]
      | ok ns => simp [Operation.attempts, Operation.offers, attempts_cons_of_ok hread]
    exact hpublishes.insert_eq fun s hs => hdigest s (hwithin name s hs) source hsource

/-- A run with a source that is inserted twice and one with a fault between the two, with assets of
which the second has a fault, with a file in place of the first asset, and with a directory that is
missing. -/
theorem run_refines_sources_reload :
    let tree : FileTree := .directory [("t", .directory [("a.html", .ofText "A<%= x %>")])]
    let before : List Operation := [.insert "page" "Hello <%= name %>!",
      .insert "page" s!"<% if x {openBrace} %>",
      .insertAll [("a", "v1"), ("b", s!"<% {closeBrace} %>"), ("c", "C")],
      .loadDirectory tree.disk "t" "html", .insert "d" "D", .remove "d",
      .configure tree.disk (Settings.default.withDirectory "missing")]
    let ops := before ++ [.insert "page" "Hello <%= name %>!"]
    Text.Distinguishes (attempted ops) ∧
      (∀ name ∈ ["b", "c", "d"], (run ops).get? name = none) ∧
      (∃ p ns, (run ops).get? "a" = some p ∧ Body.ofSource "A<%= x %>" = .ok ns ∧
        p.template = ⟨"a", ns, Text.digest "A<%= x %>"⟩ ∧
        ∀ context, (run ops).render "a" context none = ns.evaluate context) ∧
      (∀ context, (run ops).render "c" context none = .error (.templateNotFound "c")) ∧
      ((run before).insert "page" "Hello <%= name %>!").map (·.2.template) =
        Template.ofSource "page" "Hello <%= name %>!" := by
  intro tree before ops
  have hdigest : Text.Distinguishes (attempted ops) := by decide +kernel
  have hnone : ∀ name ∈ ["b", "c", "d"], Sources.run ops name = none := by decide +kernel
  have hsome : Sources.run ops "a" = some "A<%= x %>" := by decide +kernel
  obtain ⟨habsent, hpresent, hmissing, hinsert⟩ := run_refines_sources ops hdigest
  refine ⟨hdigest, ?_, hpresent "a" _ hsome, ?_, hinsert before "page" _ [] rfl⟩
  · intro name hname
    exact (habsent name).2 (hnone name hname)
  · exact hmissing "c" (hnone "c" (by decide))

end Catalog

end Stencil
