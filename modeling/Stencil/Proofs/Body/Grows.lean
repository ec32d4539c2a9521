import Stencil.Body.Edit

/-!
# Trees that have grown

While a template is read, its tree only grows. A tree has grown into another one if every node is
still at its place: a text may have got more text behind it, a block keeps its header, a conditional
keeps its branches, in order and each with its condition, and its alternative, and bodies may have
got more nodes at their ends. So no part of a conditional is ever lost.

## Main definitions

* `Stencil.Node.Grows`, `Stencil.Body.Grows`: a node or a body that has grown into another one.

## Main results

* `Stencil.Body.Grows.refl`, `Stencil.Body.Grows.trans`: growing in any number of steps.
* `Stencil.Frame.grows_fill`: a block grows with its open body.
* `Stencil.Node.grows_of_pushBranch`, `Stencil.Node.grows_of_openAlternative`,
  `Stencil.Body.grows_appendText`: the edits let a tree grow.
-/

namespace Stencil

/-! ### Growing -/

mutual

/-- The node has grown into another one. -/
def Node.Grows : Node → Node → Prop
  | .text s, m => ∃ t, m = .text (s ++ t)
  | .expression path, m => m = .expression path
  | .conditional branches alternative, m =>
    ∃ branches' alternative', m = .conditional branches' alternative' ∧
      Branch.AllGrow branches branches' ∧ Body.GrowsOption alternative alternative'
  | .loop name collection body, m =>
    ∃ body', m = .loop name collection body' ∧ Body.Grows body body'
termination_by structural n => n

/-- The branches have grown into others, with their conditions, and there may be more of them. -/
def Branch.AllGrow : List Branch → List Branch → Prop
  | [], _ => True
  | ⟨condition, body⟩ :: bs, cs =>
    ∃ body' cs', cs = ⟨condition, body'⟩ :: cs' ∧ Body.Grows body body' ∧ Branch.AllGrow bs cs'
termination_by structural bs => bs

/-- The alternative has grown into another one, if there was one. -/
def Body.GrowsOption : Option Body → Option Body → Prop
  | none, _ => True
  | some body, alternative => ∃ body', alternative = some body' ∧ Body.Grows body body'
termination_by structural alternative => alternative

/-- The body has grown into another one. -/
def Body.Grows : Body → Body → Prop
  | [], _ => True
  | n :: ns, ms => ∃ m ms', ms = m :: ms' ∧ n.Grows m ∧ Body.Grows ns ms'
termination_by structural ns => ns

end

/-! ### Any number of steps -/

mutual

theorem Node.Grows.refl : ∀ n : Node, n.Grows n
  | .text s => ⟨"", by rw [String.append_empty]⟩
  | .expression _ => rfl
  | .conditional branches alternative =>
    ⟨branches, alternative, rfl, Branch.AllGrow.refl branches, Body.GrowsOption.refl alternative⟩
  | .loop _ _ body => ⟨body, rfl, Body.Grows.refl body⟩
termination_by structural n => n

theorem Branch.AllGrow.refl (bs : List Branch) : Branch.AllGrow bs bs := by
  cases bs with
  | nil => trivial
  | cons b bs =>
    obtain ⟨condition, body⟩ := b
    exact ⟨body, bs, rfl, Body.Grows.refl body, Branch.AllGrow.refl bs⟩
termination_by structural bs

theorem Body.GrowsOption.refl :
    ∀ alternative : Option Body, Body.GrowsOption alternative alternative
  | none => trivial
  | some body => ⟨body, rfl, Body.Grows.refl body⟩
termination_by structural alternative => alternative

theorem Body.Grows.refl : ∀ ns : Body, Body.Grows ns ns
  | [] => trivial
  | n :: ns => ⟨n, ns, rfl, Node.Grows.refl n, Body.Grows.refl ns⟩
termination_by structural ns => ns

end

mutual

theorem Node.Grows.trans : ∀ {n m k : Node}, n.Grows m → m.Grows k → n.Grows k
  | .text s, _, _, h, h' => by
    obtain ⟨t, rfl⟩ := h
    obtain ⟨u, rfl⟩ := h'
    exact ⟨t ++ u, by rw [String.append_assoc]⟩
  | .expression _, _, _, h, h' => by
    obtain rfl := h
    exact h'
  | .conditional _ _, _, _, h, h' => by
    obtain ⟨bs, alternative, rfl, hbranches, halternative⟩ := h
    obtain ⟨cs, alternative', rfl, hbranches', halternative'⟩ := h'
    exact ⟨cs, alternative', rfl, Branch.AllGrow.trans hbranches hbranches',
      Body.GrowsOption.trans halternative halternative'⟩
  | .loop _ _ _, _, _, h, h' => by
    obtain ⟨body, rfl, hbody⟩ := h
    obtain ⟨body', rfl, hbody'⟩ := h'
    exact ⟨body', rfl, Body.Grows.trans hbody hbody'⟩
termination_by structural n => n

theorem Branch.AllGrow.trans : ∀ {bs cs ds : List Branch}, Branch.AllGrow bs cs →
    Branch.AllGrow cs ds → Branch.AllGrow bs ds
  | [], _, _, _, _ => trivial
  | ⟨_, _⟩ :: _, _, _, h, h' => by
    obtain ⟨body, cs, rfl, hbody, hbranches⟩ := h
    obtain ⟨body', ds, rfl, hbody', hbranches'⟩ := h'
    exact ⟨body', ds, rfl, Body.Grows.trans hbody hbody', Branch.AllGrow.trans hbranches hbranches'⟩
termination_by structural bs => bs

theorem Body.GrowsOption.trans : ∀ {a b c : Option Body}, Body.GrowsOption a b →
    Body.GrowsOption b c → Body.GrowsOption a c
  | none, _, _, _, _ => trivial
  | some _, _, _, h, h' => by
    obtain ⟨body, rfl, hbody⟩ := h
    obtain ⟨body', rfl, hbody'⟩ := h'
    exact ⟨body', rfl, Body.Grows.trans hbody hbody'⟩
termination_by structural a => a

theorem Body.Grows.trans : ∀ {ns ms ks : Body}, Body.Grows ns ms → Body.Grows ms ks →
    Body.Grows ns ks
  | [], _, _, _, _ => trivial
  | _ :: _, _, _, h, h' => by
    obtain ⟨m, ms, rfl, hnode, hbody⟩ := h
    obtain ⟨k, ks, rfl, hnode', hbody'⟩ := h'
    exact ⟨k, ks, rfl, Node.Grows.trans hnode hnode', Body.Grows.trans hbody hbody'⟩
termination_by structural ns => ns

end

/-! ### Growing at the end -/

variable {n m : Node} {ns ms : Body} {bs cs : List Branch}

theorem Branch.AllGrow.append_left (h : Branch.AllGrow bs cs) (earlier : List Branch) :
    Branch.AllGrow (earlier ++ bs) (earlier ++ cs) := by
  induction earlier with
  | nil => exact h
  | cons b earlier ih =>
    obtain ⟨condition, body⟩ := b
    exact ⟨body, earlier ++ cs, rfl, Body.Grows.refl body, ih⟩

/-- Branches grow by more of them. -/
theorem Branch.allGrow_append (bs cs : List Branch) : Branch.AllGrow bs (bs ++ cs) := by
  have hnil : Branch.AllGrow [] cs := trivial
  have hgrow := hnil.append_left bs
  rwa [List.append_nil] at hgrow

theorem Body.Grows.append_left (h : Body.Grows ns ms) (before : Body) :
    Body.Grows (before ++ ns) (before ++ ms) := by
  induction before with
  | nil => exact h
  | cons k before ih => exact ⟨k, before ++ ms, rfl, Node.Grows.refl k, ih⟩

/-- A body grows by more nodes. -/
theorem Body.grows_append (ns ms : Body) : Body.Grows ns (ns ++ ms) := by
  have hnil : Body.Grows [] ms := trivial
  have hgrow := hnil.append_left ns
  rwa [List.append_nil] at hgrow

theorem Body.grows_singleton (h : n.Grows m) : Body.Grows [n] [m] :=
  ⟨m, [], rfl, h, trivial⟩

/-- A block grows with its open body. -/
theorem Frame.grows_fill (f : Frame) (h : Body.Grows ns ms) : (f.fill ns).Grows (f.fill ms) := by
  cases f with
  | branch earlier condition =>
    have hlast : Branch.AllGrow [⟨condition, ns⟩] [⟨condition, ms⟩] := ⟨ms, [], rfl, h, trivial⟩
    exact ⟨_, none, rfl, hlast.append_left earlier, trivial⟩
  | alternative branches =>
    exact ⟨branches, some ms, rfl, Branch.AllGrow.refl branches, ms, rfl, h⟩
  | loop name collection => exact ⟨ms, rfl, h⟩

/-- A body grows by text, whether or not the text joins the one at its end. -/
theorem Body.grows_appendText (ns : Body) (s : String) : Body.Grows ns (ns.appendText s) := by
  rw [appendText]
  split
  · exact Body.Grows.refl ns
  · split
    · rename_i t hlast
      obtain ⟨before, rfl⟩ := List.getLast?_eq_some_iff.1 hlast
      rw [List.dropLast_concat]
      have htext : Node.Grows (.text t) (.text (t ++ s)) := ⟨s, rfl⟩
      exact (Body.grows_singleton htext).append_left before
    · exact Body.grows_append ns [.text s]

/-! ### Opening a conditional once more -/

/-- A conditional grows by a branch. -/
theorem Node.grows_of_pushBranch {b : Branch} (h : n.pushBranch b = .ok m) : n.Grows m := by
  cases n with
  | conditional branches alternative =>
    cases alternative with
    | none =>
      cases h
      exact ⟨branches ++ [b], none, rfl, Branch.allGrow_append branches [b], trivial⟩
    | some body => cases h
  | _ => cases h

/-- A conditional grows by its alternative. -/
theorem Node.grows_of_openAlternative (h : n.openAlternative = .ok m) : n.Grows m := by
  cases n with
  | conditional branches alternative =>
    cases branches with
    | nil => cases h
    | cons b bs =>
      cases alternative with
      | none =>
        cases h
        exact ⟨b :: bs, some [], rfl, Branch.AllGrow.refl (b :: bs), trivial⟩
      | some body => cases h
  | _ => cases h

end Stencil
