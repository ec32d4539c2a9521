import Stencil.Proofs.Catalog.Configuration
import Stencil.Proofs.Fallible
import Stencil.Proofs.Scope.Flat

/-!
# Rendering a page in a layout

A page in a layout is rendered in stages, and the first stage with a fault decides: the page is
looked up, then the layout, then the context is read, then the page is rendered against the context
alone, and at last the layout. The layout has the output of the page bound to `yield`. For its body
this is the same as the map of the context in which the entry `yield` is overwritten by the output,
so what a layout gives is what its template gives against that map, whatever the context had under
`yield`.

A page that asks for no layout gets the default layout. It is set directly, or by configuring with
success with settings that give a layout; no other operation touches it. So after a run it is the
one that was set last.

## Main definitions

* `Stencil.Operation.layouts`: the default layout that an operation sets, if it sets one.
* `Stencil.Catalog.layoutsSet`: the default layouts that a sequence of operations sets.
* `Stencil.Catalog.lastLayout`: the one that a run has set last.

## Main results

* `Stencil.Template.renderIn_bind_eq`: a binding is an overwritten map.
* `Stencil.Catalog.defaultLayout_apply`, `Stencil.Catalog.defaultLayout_run`: the default layout
  after an operation and after a run.
* `Stencil.Catalog.render_in_layout_and_renderDefault_eq`: the stages of rendering.
-/

namespace Stencil

/-! ### Contexts and bindings -/

/-- The value of a context is a map. -/
theorem exists_eq_map_of_contextValue {context : Option Datum} {root : Value}
    (h : contextValue context = .ok root) : ∃ entries, root = .map entries := by
  cases context with
  | none => exact ⟨[], (Except.ok.inj h).symm⟩
  | some d =>
    obtain ⟨v, -, hv⟩ := bind_eq_ok_iff.1 h
    cases v with
    | map entries => exact ⟨entries, (Except.ok.inj hv).symm⟩
    | null => exact ⟨[], (Except.ok.inj hv).symm⟩
    | _ => cases hv

/-- Against a map with a binding in front of it, a template has the output that it has against the
map in which this entry is overwritten. -/
theorem Template.renderIn_bind_eq (t : Template) (entries : Dictionary Value) (name : String)
    (value : Value) :
    t.renderIn ((Scope.ofRoot (.map entries)).bind name value) =
      t.renderValue (.map (Dictionary.insert name value entries)) :=
  ((Scope.denotes_ofRoot (.map entries)).bind name value).render_eq t.body

/-! ### The default layouts that operations set -/

/-- The default layout that an operation on a catalog sets, if it sets one. Configuring sets the one
of its settings when it succeeds. -/
def Operation.layouts (r : Catalog) : Operation → List (Option String)
  | setDefaultLayout layout => [layout]
  | configure disk settings =>
    match (r.configure disk settings).2 with
    | .ok _ => (settings.layout.map some).toList
    | .error _ => []
  | _ => []

namespace Catalog

/-- The default layouts that operations on a catalog set, one after the other. -/
def layoutsSet (r : Catalog) : List Operation → List (Option String)
  | [] => []
  | op :: ops => op.layouts r ++ layoutsSet (op.apply r) ops

/-- The default layout that was set last in a run; there is none if none was set. -/
def lastLayout (ops : List Operation) : Option String :=
  ((layoutsSet .empty ops).getLast?).getD none

variable {r : Catalog} {page layout : String} {p l : Published} {context : Option Datum}

/-- An operation leaves the default layout that it sets, or else the one that it finds. -/
theorem defaultLayout_apply (r : Catalog) (op : Operation) :
    (op.apply r).defaultLayout = (op.layouts r).getLast?.getD r.defaultLayout := by
  cases op with
  | insert name source =>
    cases hinsert : r.insert name source with
    | error fault =>
      rw [apply_insert_of_error hinsert]
      rfl
    | ok q =>
      rw [apply_insert_of_ok hinsert]
      exact defaultLayout_insert hinsert
  | remove name => rfl
  | insertAll assets => exact defaultLayout_insertEach r (assetOffers assets)
  | loadDirectory disk directory extension =>
    rw [Operation.apply, loadDirectory_eq_insertEach]
    exact defaultLayout_insertEach r (disk.offers directory extension)
  | configure disk settings =>
    rw [Operation.apply, Operation.layouts]
    cases hload : (r.insertEach (settings.offers disk)).2 with
    | error fault =>
      rw [configure_of_error hload, hload]
      exact defaultLayout_insertEach r (settings.offers disk)
    | ok n =>
      rw [configure_of_ok hload, defaultLayout_setLayout?, defaultLayout_insertEach]
      cases settings.layout <;> rfl
  | setDefaultLayout layout => rfl

theorem defaultLayout_foldl (r : Catalog) (ops : List Operation) :
    (ops.foldl Operation.apply r).defaultLayout =
      (r.layoutsSet ops).getLast?.getD r.defaultLayout := by
  induction ops generalizing r with
  | nil => rfl
  | cons op ops ih =>
    rw [List.foldl_cons, ih, layoutsSet, List.getLast?_append, Option.getD_or, defaultLayout_apply]

/-- After a run the default layout is the one that was set last. -/
theorem defaultLayout_run (ops : List Operation) : (run ops).defaultLayout = lastLayout ops :=
  defaultLayout_foldl empty ops

/-! ### Stages -/

theorem render_of_layout_eq_none (hp : r.get? page = some p) (hl : r.get? layout = none)
    (context : Option Datum) :
    r.render page context (some layout) = .error (.templateNotFound layout) := by
  rw [render, lookup, hp]
  show ((r.lookup layout).map some >>= fun l => _) = _
  rw [lookup, hl]
  rfl

/-- **A page in a layout, stage by stage.** The first of these faults decides: the page is missing,
the layout is missing, the context cannot be read, the page has a fault against the context alone.
Without them the answer is that of the layout against the map of the context in which `yield` is
overwritten by the output of the page. After any run, a page that asks for no layout is rendered in
the default layout that was set last, and without a layout if none was set or the last one was
cleared. -/
theorem render_in_layout_and_renderDefault_eq :
    (∀ (r : Catalog) page layout context,
      (r.get? page = none →
        r.render page context (some layout) = .error (.templateNotFound page)) ∧
      ∀ p, r.get? page = some p →
        (r.get? layout = none →
          r.render page context (some layout) = .error (.templateNotFound layout)) ∧
        ∀ l, r.get? layout = some l →
          (∀ fault, contextValue context = .error fault →
            r.render page context (some layout) = .error fault) ∧
          ∀ root, contextValue context = .ok root → ∃ entries, root = .map entries ∧
            (∀ fault, p.template.renderValue root = .error fault →
              r.render page context (some layout) = .error fault) ∧
            ∀ output, p.template.renderValue root = .ok output →
              r.render page context (some layout) =
                l.template.renderValue
                  (.map (Dictionary.insert yieldName (.str output) entries))) ∧
    ∀ ops page context,
      (run ops).renderDefault page context = (run ops).render page context (lastLayout ops) := by
  constructor
  · intro r page layout context
    refine ⟨fun hp => render_of_get?_eq_none hp context (some layout), fun p hp => ?_⟩
    refine ⟨fun hl => render_of_layout_eq_none hp hl context, fun l hl => ?_⟩
    rw [render_some_of_eq_some hp hl]
    refine ⟨fun fault hfault => by rw [hfault]; rfl, fun root hroot => ?_⟩
    obtain ⟨entries, rfl⟩ := exists_eq_map_of_contextValue hroot
    rw [hroot]
    refine ⟨entries, rfl, fun fault hfault => ?_, fun output houtput => ?_⟩
    · show (p.template.renderValue (.map entries)).bind _ = _
      rw [hfault]
      rfl
    · show (p.template.renderValue (.map entries)).bind _ = _
      rw [houtput]
      exact l.template.renderIn_bind_eq entries yieldName (.str output)
  · intro ops page context
    rw [renderDefault, defaultLayout_run]

/-- A page that shows the `yield` of its context, in a layout that shows the output of the page; the
fault of every stage, where those of the later stages are present, too; and a default layout from a
configuration, behind which one fails and one gives no layout. -/
theorem render_in_layout_and_renderDefault_eq_of_own_yield :
    let disk := (FileTree.directory []).disk
    let layout := s!"<% for x in xs {openBrace} %><%= x %><% {closeBrace} %>[<%= yield %>]"
    let assets := [("page", "<%= yield %>, <%= x %>"), ("layout", layout)]
    let malformed := [("z", s!"<% {closeBrace} %>")]
    let ops : List Operation := [.setDefaultLayout (some "old"),
      .configure disk ((Settings.default.withAssets assets).withLayout "layout"),
      .configure disk ((Settings.default.withAssets malformed).withLayout "z"),
      .configure disk (Settings.default.withAssets [("a", "A")])]
    let r := run ops
    let context : Option Datum :=
      some (.record [("x", .str "X"), ("xs", .seq [.nat 1, .nat 2]), ("yield", .str "mine")])
    let broken : Option Datum := some (.seq [])
    r.render "none" broken (some "nope") = .error (.templateNotFound "none") ∧
      r.render "page" broken (some "nope") = .error (.templateNotFound "nope") ∧
      r.render "page" broken (some "layout") = .error (.invalidContext .list) ∧
      r.render "page" none (some "layout") = .error (.variableNotFound "yield") ∧
      r.render "page" context (some "layout") = .ok "12[mine, X]" ∧
      r.renderDefault "page" context = .ok "12[mine, X]" := by
  intro disk layout assets malformed ops r context broken
  obtain ⟨hstages, hdefault⟩ := render_in_layout_and_renderDefault_eq
  have hlast : lastLayout ops = some "layout" := by decide +kernel
  obtain ⟨p, hp⟩ : ∃ p, r.get? "page" = some p := Option.isSome_iff_exists.1 (by decide +kernel)
  obtain ⟨l, hl⟩ : ∃ l, r.get? "layout" = some l := Option.isSome_iff_exists.1 (by decide +kernel)
  have hnone : r.get? "none" = none := Option.isNone_iff_eq_none.1 (by decide +kernel)
  have hnope : r.get? "nope" = none := Option.isNone_iff_eq_none.1 (by decide +kernel)
  obtain ⟨root, hroot⟩ : ∃ root, contextValue context = .ok root := ⟨_, rfl⟩
  have houtput : (r.get? "page").map (fun p => (contextValue context).bind p.template.renderValue) =
      some (.ok "mine, X") := by decide +kernel
  have hlayout : (r.get? "layout").map (fun l => (contextValue context).bind fun root =>
      l.template.renderValue
        (.map (Dictionary.insert yieldName (.str "mine, X") root.entries))) =
      some (.ok "12[mine, X]") := by decide +kernel
  have hfault : (r.get? "page").map (fun p => p.template.renderValue .emptyMap) =
      some (.error (.variableNotFound "yield")) := by decide +kernel
  rw [hp] at houtput hfault
  rw [hl] at hlayout
  rw [hroot] at houtput hlayout
  obtain ⟨hinvalid, -⟩ := ((hstages r "page" "layout" broken).2 p hp).2 l hl
  obtain ⟨-, -, hpage, -⟩ := (((hstages r "page" "layout" none).2 p hp).2 l hl).2 _ rfl
  obtain ⟨entries, rfl, -, hrender⟩ :=
    (((hstages r "page" "layout" context).2 p hp).2 l hl).2 root hroot
  have hanswer : r.render "page" context (some "layout") = .ok "12[mine, X]" :=
    (hrender _ (Option.some.inj houtput)).trans (Option.some.inj hlayout)
  refine ⟨(hstages r "none" "nope" broken).1 hnone,
    ((hstages r "page" "nope" broken).2 p hp).1 hnope, hinvalid _ rfl,
    hpage _ (Option.some.inj hfault), hanswer, ?_⟩
  rw [hdefault, hlast, hanswer]

end Catalog

end Stencil
