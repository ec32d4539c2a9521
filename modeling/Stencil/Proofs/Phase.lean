import Stencil.Catalog
import Stencil.Proofs.Fallible
import Stencil.Proofs.Progress.Failure
import Stencil.Proofs.Segment.Search

/-!
# The phases of work

A template is parsed, it may come from a disk, a page and its layout are looked up, a context is
read, and then the body is rendered. Each of these phases has faults of its own: what a caller sees
when parsing can never come from rendering, and the other way round. A fault of parsing is wrapped
once, by the name of the template, as soon as the template has a name.

## Main definitions

* `Stencil.Phase`, `Stencil.Fault.phase`: the phase in which a fault arises.
* `Stencil.Catalog.IsMissing`: the fault of a name without a template.

## Main results

* `Stencil.Body.failsOnly_ofSource`: parsing.
* `Stencil.Template.ofSource_eq_error_cases`, `Stencil.Catalog.insert_eq_error`: parsing under a
  name.
* `Stencil.failsOnly_contextValue`, `Stencil.Body.failsOnly_render`: reading a context, and
  rendering.
* `Stencil.Catalog.failsOnly_render`: rendering a page.
-/

namespace Stencil

/-- The phases of work with templates. A fault of a named template is one of parsing that has been
wrapped. -/
inductive Phase where
  | parsing
  | naming
  | disk
  | lookup
  | context
  | rendering
  deriving DecidableEq, Repr

/-- The phase in which a fault arises. -/
def Fault.phase : Fault → Phase
  | unclosedTag => .parsing
  | statement _ => .parsing
  | brackets _ => .parsing
  | template _ _ => .naming
  | directoryNotFound _ => .disk
  | unreadable _ _ => .disk
  | templateNotFound _ => .lookup
  | serialize _ => .context
  | invalidContext _ => .context
  | variableNotFound _ => .rendering
  | typeMismatch _ _ => .rendering
  | notACollection _ _ => .rendering

/-! ### Parsing -/

theorem Segment.failsOnly_ofChars (s : List Char) :
    FailsOnly (· = .unclosedTag) (ofChars s) :=
  fun _ h => (eq_unclosedTag_of_ofChars h).1

/-- A source that cannot be read into items has a tag that is not closed. -/
theorem Item.failsOnly_ofSource (source : String) :
    FailsOnly (· = .unclosedTag) (Item.ofSource source) :=
  (Segment.failsOnly_ofChars source.toList).bind fun _ => .ok _

/-- Items are at fault in a statement or in their braces. -/
theorem Body.failsOnly_ofItems (items : List Item) :
    FailsOnly (fun fault => fault.phase = .parsing) (ofItems items) := by
  intro fault h
  rcases ofItems_eq_error h with ⟨cause, rfl⟩ | rfl | ⟨n, rfl⟩ <;> rfl

/-- A source has faults of parsing only. -/
theorem Body.failsOnly_ofSource (source : String) :
    FailsOnly (fun fault => fault.phase = .parsing) (ofSource source) := by
  refine ((Item.failsOnly_ofSource source).mono ?_).bind failsOnly_ofItems
  rintro _ rfl
  rfl

/-! ### Parsing under a name -/

/-- A fault of a named source is the one of the source, wrapped once by the name. -/
theorem Template.ofSource_eq_error_cases {name source : String} {fault : Fault}
    (h : ofSource name source = .error fault) :
    ∃ cause, Body.ofSource source = .error cause ∧ fault = .template name cause ∧
      cause.phase = .parsing ∧ fault.rootCause = cause := by
  rw [ofSource] at h
  cases hread : Body.ofSource source with
  | ok ns => rw [hread] at h; cases h
  | error cause =>
    rw [hread] at h
    cases h
    have hphase : cause.phase = .parsing := Body.failsOnly_ofSource source cause hread
    refine ⟨cause, rfl, rfl, hphase, ?_⟩
    cases cause with
    | template n f => cases hphase
    | _ => rfl

/-- Inserting has the fault of reading the source. -/
theorem Catalog.insert_eq_error {r : Catalog} {name source : String} {fault : Fault}
    (h : r.insert name source = .error fault) : Template.ofSource name source = .error fault := by
  rw [insert] at h
  cases hcurrent : r.current? name (Text.digest source) with
  | some p => rw [hcurrent] at h; cases h
  | none =>
    rw [hcurrent] at h
    exact map_eq_error_iff.1 h

/-! ### Rendering -/

/-- A fault of rendering. -/
abbrev Fault.IsOfRendering (fault : Fault) : Prop := fault.phase = .rendering

namespace Scope

variable (σ : Scope) (path : String)

theorem failsOnly_lookup : FailsOnly Fault.IsOfRendering (σ.lookup path) := by
  intro fault h
  obtain ⟨-, rfl⟩ := lookup_eq_error_iff.1 h
  rfl

theorem failsOnly_condition : FailsOnly Fault.IsOfRendering (σ.condition path) := by
  refine (σ.failsOnly_lookup path).bind fun v => ?_
  cases v with
  | bool b => exact .ok b
  | _ => exact .error rfl

theorem failsOnly_collection : FailsOnly Fault.IsOfRendering (σ.collection path) := by
  refine (σ.failsOnly_lookup path).bind fun v => ?_
  cases v with
  | list items => exact .ok items
  | _ => exact .error rfl

end Scope

mutual

theorem Node.failsOnly_render :
    ∀ (n : Node) (σ : Scope), FailsOnly Fault.IsOfRendering (n.render σ)
  | .text s, _ => .ok s
  | .expression path, σ => by
    rw [Node.render]
    exact (σ.failsOnly_lookup path).bind fun v => .ok v.text
  | .conditional branches alternative, σ => by
    rw [Node.render]
    refine (Branch.failsOnly_renderFirst branches σ).bind fun output => ?_
    cases output with
    | some output => exact .ok output
    | none => exact Body.failsOnly_renderOption alternative σ
  | .loop name collection body, σ => by
    rw [Node.render]
    refine (σ.failsOnly_collection collection).bind fun items => ?_
    refine FailsOnly.bind (.mapM fun item _ => ?_) fun outputs => .ok _
    exact Body.failsOnly_render body (σ.bind name item)

theorem Branch.failsOnly_renderFirst :
    ∀ (branches : List Branch) (σ : Scope),
      FailsOnly Fault.IsOfRendering (Branch.renderFirst branches σ)
  | [], _ => .ok none
  | ⟨condition, body⟩ :: branches, σ => by
    rw [Branch.renderFirst]
    refine (σ.failsOnly_condition condition).bind fun b => ?_
    cases b with
    | true => exact (Body.failsOnly_render body σ).bind fun output => .ok (some output)
    | false => exact Branch.failsOnly_renderFirst branches σ

theorem Body.failsOnly_renderOption :
    ∀ (alternative : Option Body) (σ : Scope),
      FailsOnly Fault.IsOfRendering (Body.renderOption alternative σ)
  | none, _ => .ok ""
  | some body, σ => Body.failsOnly_render body σ

/-- A body has faults of rendering only. -/
theorem Body.failsOnly_render :
    ∀ (ns : Body) (σ : Scope), FailsOnly Fault.IsOfRendering (ns.render σ)
  | [], _ => .ok ""
  | n :: ns, σ => by
    rw [Body.render]
    exact (Node.failsOnly_render n σ).bind fun output =>
      (Body.failsOnly_render ns σ).bind fun outputs => .ok (output ++ outputs)

end

/-! ### Contexts -/

/-- A context has faults of its own only. -/
theorem failsOnly_contextValue (context : Option Datum) :
    FailsOnly (fun fault => fault.phase = .context) (contextValue context) := by
  cases context with
  | none => exact .ok _
  | some d =>
    have hvalue : FailsOnly (fun fault => fault.phase = .context) d.value := by
      intro fault h
      obtain ⟨offence, -, rfl⟩ := mapError_eq_error_iff.1 h
      rfl
    refine hvalue.bind fun v => ?_
    cases v with
    | map es => exact .ok _
    | null => exact .ok _
    | _ => exact .error rfl

/-- A fault of a context or of rendering. -/
def Fault.IsOfEvaluation (fault : Fault) : Prop :=
  fault.phase = .context ∨ fault.phase = .rendering

/-- Evaluating a body has the faults of its context and those of rendering. -/
theorem Body.failsOnly_evaluate (ns : Body) (context : Option Datum) :
    FailsOnly Fault.IsOfEvaluation (ns.evaluate context) :=
  ((failsOnly_contextValue context).mono fun _ => .inl).bind fun root =>
    (failsOnly_render ns (.ofRoot root)).mono fun _ => .inr

theorem Template.failsOnly_render (t : Template) (context : Option Datum) :
    FailsOnly Fault.IsOfEvaluation (t.render context) :=
  t.body.failsOnly_evaluate context

/-! ### Pages -/

namespace Catalog

variable (r : Catalog)

/-- The fault of a name without a template. -/
def IsMissing (name : String) (fault : Fault) : Prop :=
  r.get? name = none ∧ fault = .templateNotFound name

theorem failsOnly_lookup (name : String) : FailsOnly (r.IsMissing name) (r.lookup name) := by
  intro fault h
  rw [lookup] at h
  cases hget : r.get? name with
  | some p => rw [hget] at h; cases h
  | none =>
    rw [hget] at h
    cases h
    exact ⟨hget, rfl⟩

/-- A page has the faults of a missing page or layout, of the context and of rendering. -/
theorem failsOnly_render (name : String) (context : Option Datum) (layout : Option String) :
    FailsOnly (fun fault => r.IsMissing name fault ∨
      (∃ l, layout = some l ∧ r.IsMissing l fault) ∨ fault.IsOfEvaluation)
      (r.render name context layout) := by
  rw [render]
  refine ((r.failsOnly_lookup name).mono fun _ => .inl).bind fun page => ?_
  refine FailsOnly.bind ?_ fun found => ?_
  · cases layout with
    | none => exact .ok none
    | some l =>
      exact ((r.failsOnly_lookup l).map some).mono fun _ h => .inr (.inl ⟨l, rfl, h⟩)
  · refine ((failsOnly_contextValue context).mono fun _ h => .inr (.inr (.inl h))).bind
      fun root => ?_
    have hrender (t : Template) (σ : Scope) : FailsOnly (fun fault => r.IsMissing name fault ∨
        (∃ l, layout = some l ∧ r.IsMissing l fault) ∨ fault.IsOfEvaluation) (t.renderIn σ) :=
      (t.body.failsOnly_render σ).mono fun _ h => .inr (.inr (.inr h))
    refine (hrender page _).bind fun output => ?_
    cases found with
    | none => exact .ok output
    | some l => exact hrender l _

end Catalog

end Stencil
