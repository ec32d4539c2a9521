import Stencil.Proofs.Body.Join

/-!
# Merging neighbouring texts

A tree that was put together node by node can have texts next to each other. Merging makes one text
of them, in every body of the tree. It goes along with growing a tree at its end: merging first and
then appending a text the way a reading does, so that it joins the text in front of it, is the same
as appending the text as a node of its own and merging then. Everything but texts is left in its
place, so merging also goes along with closing a block.

## Main definitions

* `Stencil.Body.glueText`: a text in front of a body, joined with the text there.
* `Stencil.Node.mergeTexts`, `Stencil.Body.mergeTexts`, `Stencil.Frame.mergeTexts`: the tree in
  which neighbouring texts are one.

## Main results

* `Stencil.Body.mergeTexts_append_text`, `Stencil.Body.mergeTexts_append_singleton`: merging a tree
  that has grown by one node.
* `Stencil.Frame.mergeTexts_fill`: merging inside a block.
-/

namespace Stencil

/-! ### A text in front of a body -/

/-- Text in front of a body. A text at the beginning of the body is joined with it. -/
def Body.glueText (s : String) : Body → Body
  | .text t :: ns => .text (s ++ t) :: ns
  | ns => .text s :: ns

namespace Body

theorem glueText_eq_join (s : String) (ns : Body) : glueText s ns = join [.text s] ns := by
  rcases ns with _ | ⟨n, ns⟩
  · rfl
  · cases n <;> rfl

theorem glueText_of_not_isText {ns : Body} (hns : ∀ n ∈ ns.head?, n.isText = false) (s : String) :
    glueText s ns = .text s :: ns := by
  rcases ns with _ | ⟨n, ns⟩
  · rfl
  · have hn : n.isText = false := hns n rfl
    cases n <;> first | rfl | cases hn

/-- What is appended to a body is not reached by a text in front of it, unless it is a text that
follows at once. -/
theorem glueText_append (s : String) {ns ms : Body}
    (hms : ns ≠ [] ∨ ∀ n ∈ ms.head?, n.isText = false) :
    glueText s (ns ++ ms) = glueText s ns ++ ms := by
  rcases ns with _ | ⟨n, ns⟩
  · exact glueText_of_not_isText (hms.resolve_left (fun h => h rfl)) s
  · cases n <;> rfl

/-- A text in front and a text at the end of a body can be added in either order. -/
theorem glueText_appendText (s : String) {t : String} (ht : t ≠ "") (ns : Body) :
    glueText s (appendText ns t) = appendText (glueText s ns) t := by
  rw [glueText_eq_join, glueText_eq_join, appendText_eq_join ht, appendText_eq_join ht, join_assoc]

end Body

/-! ### Merged trees -/

mutual

/-- The node with neighbouring texts merged in its bodies. -/
def Node.mergeTexts : Node → Node
  | .text s => .text s
  | .expression path => .expression path
  | .conditional branches alternative =>
    .conditional (Branch.mergeTexts branches) (Body.mergeTextsOption alternative)
  | .loop name collection body => .loop name collection (Body.mergeTexts body)

/-- The branches with neighbouring texts merged in their bodies. -/
def Branch.mergeTexts : List Branch → List Branch
  | [] => []
  | ⟨condition, body⟩ :: branches =>
    ⟨condition, Body.mergeTexts body⟩ :: Branch.mergeTexts branches

/-- The alternative with neighbouring texts merged. -/
def Body.mergeTextsOption : Option Body → Option Body
  | none => none
  | some body => some (Body.mergeTexts body)

/-- The body with neighbouring texts merged, at every depth. -/
def Body.mergeTexts : Body → Body
  | [] => []
  | .text s :: ns => Body.glueText s (Body.mergeTexts ns)
  | n :: ns => n.mergeTexts :: Body.mergeTexts ns

end

@[simp] theorem Node.isText_mergeTexts (n : Node) : n.mergeTexts.isText = n.isText := by
  cases n <;> rfl

theorem Branch.mergeTexts_append (bs cs : List Branch) :
    mergeTexts (bs ++ cs) = mergeTexts bs ++ mergeTexts cs := by
  induction bs with
  | nil => rfl
  | cons b bs ih =>
    obtain ⟨condition, body⟩ := b
    rw [List.cons_append, mergeTexts, mergeTexts, ih, List.cons_append]

/-- The frame with neighbouring texts merged in the bodies that it holds. -/
def Frame.mergeTexts : Frame → Frame
  | branch earlier condition => branch (Branch.mergeTexts earlier) condition
  | alternative branches => alternative (Branch.mergeTexts branches)
  | loop name collection => loop name collection

/-- A block is no text. -/
@[simp] theorem Frame.isText_fill (f : Frame) (b : Body) : (f.fill b).isText = false := by
  cases f <;> rfl

/-- Merging a block merges its frame and its open body. -/
theorem Frame.mergeTexts_fill (f : Frame) (b : Body) :
    (f.fill b).mergeTexts = f.mergeTexts.fill (Body.mergeTexts b) := by
  cases f with
  | branch earlier condition =>
    rw [fill, Node.mergeTexts, Branch.mergeTexts_append]
    rfl
  | _ => rfl

namespace Body

theorem mergeTexts_cons_of_not_isText {n : Node} (hn : n.isText = false) (ns : Body) :
    mergeTexts (n :: ns) = n.mergeTexts :: mergeTexts ns := by
  cases n with
  | text s => cases hn
  | _ => rw [mergeTexts]; nofun

/-- A node that is no text stays apart from the nodes in front of it. -/
theorem mergeTexts_append_singleton {n : Node} (hn : n.isText = false) (ns : Body) :
    mergeTexts (ns ++ [n]) = mergeTexts ns ++ [n.mergeTexts] := by
  induction ns with
  | nil => rw [List.nil_append, mergeTexts_cons_of_not_isText hn]; rfl
  | cons m ns ih =>
    cases hm : m.isText with
    | true =>
      cases m with
      | text s =>
        rw [List.cons_append, mergeTexts, mergeTexts, ih]
        exact glueText_append s (.inr (by simp [hn]))
      | _ => cases hm
    | false =>
      rw [List.cons_append, mergeTexts_cons_of_not_isText hm, mergeTexts_cons_of_not_isText hm, ih,
        List.cons_append]

/-- A text at the end joins the text in front of it. -/
theorem mergeTexts_append_text {s : String} (hs : s ≠ "") (ns : Body) :
    mergeTexts (ns ++ [.text s]) = appendText (mergeTexts ns) s := by
  induction ns with
  | nil =>
    have hnil : appendText [] s = [.text s] := appendText_of_not_isText hs (by simp)
    exact hnil.symm
  | cons m ns ih =>
    cases hm : m.isText with
    | true =>
      cases m with
      | text t => rw [List.cons_append, mergeTexts, mergeTexts, ih, glueText_appendText t hs]
      | _ => cases hm
    | false =>
      have hmerged : m.mergeTexts.isText = false := by rwa [Node.isText_mergeTexts]
      rw [List.cons_append, mergeTexts_cons_of_not_isText hm, mergeTexts_cons_of_not_isText hm, ih,
        appendText_cons (.inl hmerged)]

/-- A body that ends with a text still does so when it has been merged. -/
theorem exists_mergeTexts_append_text (ns : Body) (s : String) :
    ∃ before t, mergeTexts (ns ++ [.text s]) = before ++ [.text t] := by
  induction ns with
  | nil => exact ⟨[], s, rfl⟩
  | cons m ns ih =>
    obtain ⟨before, t, ht⟩ := ih
    cases hm : m.isText with
    | false =>
      rw [List.cons_append, mergeTexts_cons_of_not_isText hm, ht]
      exact ⟨m.mergeTexts :: before, t, rfl⟩
    | true =>
      cases m with
      | text u =>
        rw [List.cons_append, mergeTexts, ht]
        rcases before with _ | ⟨n, before⟩
        · exact ⟨[], u ++ t, rfl⟩
        · rw [glueText_append u (.inl (List.cons_ne_nil _ _))]
          exact ⟨_, t, rfl⟩
      | _ => cases hm

end Body

end Stencil
