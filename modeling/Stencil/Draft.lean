import Stencil.Body.Edit
import Stencil.Event

/-!
# Drafts

While a template is read, some blocks are still open. A draft is the tree cut open along these
blocks: the body of the innermost one, and for every open block, innermost first, the nodes in front
of it and its frame. A block that is closed becomes the last node of the body around it, from where
`else` can open it again.

## Main definitions

* `Stencil.Draft`: an unfinished tree.
* `Stencil.Draft.apply`: the draft after an event.
* `Stencil.Draft.finish`: the tree, when no block is open.
-/

namespace Stencil

/-- A tree with open blocks. -/
structure Draft where
  /-- The body of the innermost open block, or of the template if none is open. -/
  body : Body
  /-- The open blocks, innermost first: the nodes in front of the block, and its frame. -/
  enclosing : List (Body × Frame)

namespace Draft

/-- The draft of a template of which nothing has been read. -/
def empty : Draft := ⟨[], []⟩

/-- A draft with one more open block. -/
def enter (d : Draft) (before : Body) (frame : Frame) (inner : Body) : Draft :=
  ⟨inner, (before, frame) :: d.enclosing⟩

/-- Closes the innermost block. -/
def close (d : Draft) : Except Fault Draft :=
  match d.enclosing with
  | [] => .error (.brackets .strayClose)
  | (before, frame) :: rest => .ok ⟨before ++ [frame.fill d.body], rest⟩

/-- Opens the last node of an edited body. -/
def reopen (d : Draft) (edited : Except StatementFault Body) : Except Fault Draft :=
  match edited with
  | .error e => .error (.statement e)
  | .ok ns =>
    match Body.openLast ns with
    | .error e => .error (.statement e)
    | .ok (before, frame, inner) => .ok (d.enter before frame inner)

/-- The draft after an event. -/
def apply (d : Draft) : Event → Except Fault Draft
  | .text s => .ok { d with body := Body.appendText d.body s }
  | .expression path => .ok { d with body := d.body ++ [.expression path] }
  | .openIf condition => .ok (d.enter d.body (.branch [] condition) [])
  | .openFor name collection => .ok (d.enter d.body (.loop name collection) [])
  | .close => d.close
  | .elseIf condition => d.reopen (Body.pushBranch (.ofCondition condition) d.body)
  | .otherwise => d.reopen (Body.openAlternative d.body)

/-- The draft after a sequence of events. -/
def applyAll (d : Draft) (events : List Event) : Except Fault Draft :=
  events.foldlM apply d

/-- The tree, when every block has been closed. -/
def finish (d : Draft) : Except Fault Body :=
  if d.enclosing.isEmpty then .ok d.body
  else .error (.brackets (.neverClosed d.enclosing.length))

@[simp] theorem applyAll_nil (d : Draft) : d.applyAll [] = .ok d := rfl

theorem applyAll_cons (d : Draft) (e : Event) (es : List Event) :
    d.applyAll (e :: es) = (d.apply e).bind fun d' => d'.applyAll es := by
  rw [applyAll, List.foldlM_cons]
  rfl

theorem applyAll_append (d : Draft) (es fs : List Event) :
    d.applyAll (es ++ fs) = (d.applyAll es).bind fun d' => d'.applyAll fs := by
  rw [applyAll, List.foldlM_append]
  rfl

end Draft

end Stencil
