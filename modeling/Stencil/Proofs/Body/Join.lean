import Stencil.Body.Edit

/-!
# Bodies one after the other

Text that meets text is one text. So a body grows by a text either at its end
(`Stencil.Body.appendText`) or, seen from the other side, in front of it
(`Stencil.Body.prependText`), and two bodies are joined at a seam where the last text of the first
and the first text of the second become one (`Stencil.Body.join`). Joining is associative, and a
text in front or at the end of a body is joined to it, so it does not matter from which side the
nodes around a seam are added.

## Main definitions

* `Stencil.Node.isText`: the nodes that can be joined.
* `Stencil.Body.prependText`, `Stencil.Body.join`.

## Main results

* `Stencil.Body.join_assoc`: joining is associative.
* `Stencil.Body.join_prependText`, `Stencil.Body.join_cons`: the first node of the second body may
  as well be the last one of the first.
* `Stencil.Body.cons_join`, `Stencil.Body.prependText_join`: what is in front of the first body is
  in front of both.
* `Stencil.Body.prependText_prependText`: texts in front of a body are one text.
-/

namespace Stencil

/-- Whether a node is a text. -/
def Node.isText : Node → Bool
  | text _ => true
  | _ => false

namespace Body

/-- Text in front of a body. It joins a text at the beginning, and empty text changes nothing. -/
def prependText (s : String) (ns : Body) : Body :=
  if s = "" then ns
  else match ns with
    | .text t :: ns => .text (s ++ t) :: ns
    | ns => .text s :: ns

/-- Two bodies one after the other; a text at the end of the first one and a text at the beginning
of the second one are joined. -/
def join (ns ms : Body) : Body :=
  match ns.getLast?, ms with
  | some (.text t), .text s :: ms => ns.dropLast ++ .text (t ++ s) :: ms
  | _, ms => ns ++ ms

/-! ### Text in front of a body -/

@[simp] theorem prependText_empty (ns : Body) : prependText "" ns = ns := by
  simp [prependText]

theorem prependText_text {s : String} (hs : s ≠ "") (t : String) (ns : Body) :
    prependText s (.text t :: ns) = .text (s ++ t) :: ns := by
  simp [prependText, hs]

/-- In front of anything but a text, text is a node of its own. -/
theorem prependText_of_not_isText {s : String} (hs : s ≠ "") {ns : Body}
    (hns : ∀ n ∈ ns.head?, n.isText = false) : prependText s ns = .text s :: ns := by
  cases ns with
  | nil => simp [prependText, hs]
  | cons n ns =>
    have hn : n.isText = false := hns n rfl
    cases n <;> simp_all [prependText, Node.isText]

/-- A body that text was put in front of starts with a text. -/
theorem exists_prependText_eq {s : String} (hs : s ≠ "") (ns : Body) :
    ∃ t ms, prependText s ns = .text (s ++ t) :: ms ∧
      (ns = .text t :: ms ∨ t = "" ∧ ns = ms ∧ ∀ n ∈ ns.head?, n.isText = false) := by
  rcases ns with _ | ⟨n, ns⟩
  · exact ⟨"", [], by simp [prependText, hs], .inr ⟨rfl, rfl, by simp⟩⟩
  · cases hn : n.isText with
    | true =>
      cases n with
      | text t => exact ⟨t, ns, prependText_text hs t ns, .inl rfl⟩
      | _ => cases hn
    | false =>
      have hhead : ∀ m ∈ (n :: ns).head?, m.isText = false := by
        intro m hm
        obtain rfl : n = m := by simpa using hm
        exact hn
      refine ⟨"", n :: ns, ?_, .inr ⟨rfl, rfl, hhead⟩⟩
      rw [prependText_of_not_isText hs hhead, String.append_empty]

/-! ### Joining -/

@[simp] theorem nil_join (ms : Body) : join [] ms = ms := rfl

@[simp] theorem join_nil (ns : Body) : join ns [] = ns := by
  simp [join]

/-- At a seam with anything but a text behind it nothing is joined. -/
theorem join_cons_of_not_isText {n : Node} (hn : n.isText = false) (ns ms : Body) :
    join ns (n :: ms) = ns ++ n :: ms := by
  unfold join
  split
  · simp_all [Node.isText]
  · rfl

theorem append_text_join (ns : Body) (t s : String) (ms : Body) :
    join (ns ++ [.text t]) (.text s :: ms) = ns ++ .text (t ++ s) :: ms := by
  simp [join]

/-- At a seam with anything but a text in front of it nothing is joined. -/
theorem join_of_not_isText {ns : Body} (hns : ∀ n ∈ ns.getLast?, n.isText = false) (ms : Body) :
    join ns ms = ns ++ ms := by
  unfold join
  split
  · rename_i hl
    exact absurd (hns _ hl) (by simp [Node.isText])
  · rfl

/-- The first node of the second body may as well end the first one, unless it is a text. -/
theorem join_cons {n : Node} (hn : n.isText = false) (ns ms : Body) :
    join ns (n :: ms) = join (ns ++ [n]) ms := by
  have hlast : ∀ m ∈ (ns ++ [n]).getLast?, m.isText = false := by simp [hn]
  rw [join_cons_of_not_isText hn, join_of_not_isText hlast, List.append_cons]

/-- A join does not reach the first node of the first body, unless that is a text which stands
alone. -/
theorem cons_join {n : Node} {ns : Body} (h : n.isText = false ∨ ns ≠ []) (ms : Body) :
    join (n :: ns) ms = n :: join ns ms := by
  rcases ns with _ | ⟨m, ns⟩
  · have hn : n.isText = false := h.resolve_right (fun hne => hne rfl)
    exact join_of_not_isText (by simp [hn]) ms
  · unfold join
    rw [List.getLast?_cons_cons]
    split <;> rfl

theorem join_ne_nil {ns : Body} (h : ns ≠ []) (ms : Body) : join ns ms ≠ [] := by
  unfold join
  split <;> simp [h]

/-- Joining is associative. -/
theorem join_assoc (ns ms ls : Body) : join (join ns ms) ls = join ns (join ms ls) := by
  induction ns with
  | nil => rfl
  | cons n ns ih =>
    by_cases h : n.isText = false ∨ ns ≠ []
    · have hjoin : n.isText = false ∨ join ns ms ≠ [] := h.imp_right fun hns => join_ne_nil hns ms
      rw [cons_join h, cons_join hjoin, cons_join h, ih]
    -- What is left is a text that stands alone, in front of what may be another one.
    obtain ⟨t, rfl, rfl⟩ : ∃ t, n = .text t ∧ ns = [] := by
      cases n <;> simp_all [Node.isText]
    rcases ms with _ | ⟨m, ms⟩
    · rw [join_nil, nil_join]
    cases hm : m.isText with
    | false =>
      have hrest : m :: ms ≠ [] := List.cons_ne_nil m ms
      rw [join_cons_of_not_isText hm, cons_join (.inl hm), join_cons_of_not_isText hm]
      rw [List.singleton_append, cons_join (.inr hrest), cons_join (.inl hm)]
      rfl
    | true =>
      cases m with
      | text u =>
        have hmeet : ∀ rest, join [.text t] (.text u :: rest) = .text (t ++ u) :: rest :=
          fun rest => append_text_join [] t u rest
        by_cases hrest : ms = []
        · subst hrest
          rw [hmeet]
          rcases ls with _ | ⟨l, ls⟩
          · rw [join_nil, join_nil, hmeet]
          · cases l <;> simp [join, String.append_assoc]
        · rw [hmeet, cons_join (.inr hrest), cons_join (.inr hrest), hmeet]
      | _ => cases hm

/-! ### Texts at the two ends -/

/-- Text in front of a body is joined to it. -/
theorem prependText_eq_join {s : String} (hs : s ≠ "") (ns : Body) :
    prependText s ns = join [.text s] ns := by
  rcases ns with _ | ⟨n, ns⟩
  · simp [prependText, hs]
  · cases n <;> simp [prependText, hs, join]

/-- Text at the end of a body is joined to it. -/
theorem appendText_eq_join {s : String} (hs : s ≠ "") (ns : Body) :
    appendText ns s = join ns [.text s] := by
  rw [appendText, if_neg hs]
  unfold join
  rcases ns.getLast? with _ | n
  · rfl
  · cases n <;> rfl

/-- Texts in front of a body are one text. -/
theorem prependText_prependText (s t : String) (ns : Body) :
    prependText s (prependText t ns) = prependText (s ++ t) ns := by
  by_cases hs : s = ""
  · rw [hs, prependText_empty, String.empty_append]
  by_cases ht : t = ""
  · rw [ht, prependText_empty, String.append_empty]
  have hst : s ++ t ≠ "" := by simp [hs]
  rw [prependText_eq_join hs, prependText_eq_join ht, prependText_eq_join hst, ← join_assoc]
  rfl

/-- A text in front of the first body is in front of both. -/
theorem prependText_join (s : String) (ns ms : Body) :
    join (prependText s ns) ms = prependText s (join ns ms) := by
  by_cases hs : s = ""
  · rw [hs, prependText_empty, prependText_empty]
  · rw [prependText_eq_join hs, prependText_eq_join hs, join_assoc]

/-- A text in front of the second body may as well be added to the end of the first one. -/
theorem join_prependText (ns : Body) (s : String) (ms : Body) :
    join ns (prependText s ms) = join (appendText ns s) ms := by
  by_cases hs : s = ""
  · rw [hs, prependText_empty, appendText_empty]
  · rw [prependText_eq_join hs, appendText_eq_join hs, join_assoc]

/-- Text is put in front of a body and added to its end in any order. -/
theorem appendText_prependText (t : String) (ns : Body) (s : String) :
    appendText (prependText t ns) s = prependText t (appendText ns s) := by
  by_cases hs : s = ""
  · rw [hs, appendText_empty, appendText_empty]
  · rw [appendText_eq_join hs, appendText_eq_join hs, prependText_join]

theorem appendText_of_not_isText {s : String} (hs : s ≠ "") {ns : Body}
    (hns : ∀ n ∈ ns.getLast?, n.isText = false) : appendText ns s = ns ++ [.text s] := by
  rw [appendText_eq_join hs, join_of_not_isText hns]

/-- Text at the end of a body does not reach its first node, unless that is a text which stands
alone. -/
theorem appendText_cons {n : Node} {ns : Body} (h : n.isText = false ∨ ns ≠ []) (s : String) :
    appendText (n :: ns) s = n :: appendText ns s := by
  by_cases hs : s = ""
  · rw [hs, appendText_empty, appendText_empty]
  · rw [appendText_eq_join hs, appendText_eq_join hs, cons_join h]

end Body

end Stencil
