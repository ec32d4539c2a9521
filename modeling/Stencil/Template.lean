import Stencil.Body.Render
import Stencil.Body.Source
import Stencil.Datum
import Stencil.Text.Digest

/-!
# Templates

A template is a body with a name, and the digest of the source it was read from. It is rendered
against a context: a datum whose value is a map. A context that is missing or null is the map
without entries.

## Main definitions

* `Stencil.Template`, `Stencil.Template.ofSource`.
* `Stencil.contextValue`: the value of a context.
* `Stencil.Body.evaluate`: the output of a body for a context.
* `Stencil.Template.renderIn`, `Stencil.Template.renderValue`, `Stencil.Template.render`: the output
  of a template in a scope, for a value and for a context.
-/

namespace Stencil

/-- A body with a name. -/
structure Template where
  name : String
  body : Body
  /-- The digest of the source. -/
  digest : Text.Digest

/-- The value of a datum, as the value a template can be rendered against. -/
def Datum.value (d : Datum) : Except Fault Value :=
  d.toValue.mapError .serialize

/-- The value of a context: a map, and the map without entries if the context is missing or null. -/
def contextValue : Option Datum → Except Fault Value
  | none => .ok .emptyMap
  | some d => do
    match ← d.value with
    | .map entries => return .map entries
    | .null => return .emptyMap
    | v => throw (.invalidContext v.kind)

/-- The output of a body for a context. -/
def Body.evaluate (ns : Body) (context : Option Datum) : Except Fault String := do
  let root ← contextValue context
  ns.render (.ofRoot root)

namespace Template

/-- The template of a source; a fault of the source is one of the template of that name. -/
def ofSource (name source : String) : Except Fault Template :=
  match Body.ofSource source with
  | .ok body => .ok ⟨name, body, Text.digest source⟩
  | .error fault => .error (fault.inTemplate name)

/-- The output in a scope. -/
def renderIn (t : Template) (σ : Scope) : Except Fault String :=
  t.body.render σ

/-- The output against a value. -/
def renderValue (t : Template) (root : Value) : Except Fault String :=
  t.renderIn (.ofRoot root)

/-- The output for a context. -/
def render (t : Template) (context : Option Datum) : Except Fault String := do
  let root ← contextValue context
  t.renderValue root

end Template

end Stencil
