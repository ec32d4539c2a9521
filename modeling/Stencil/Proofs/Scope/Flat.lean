import Stencil.Proofs.Dictionary
import Stencil.Proofs.FreeName

/-!
# Flat scopes

A scope can have many bindings in front of its root, of which the innermost one of a name counts.
The same is said by one map: the entries of the root, overwritten by the bindings in the order in
which they were made. Putting this map in the place of root and bindings changes no lookup and no
output. In particular an iteration of a loop renders the body of the loop against a copy of the map
in which the name of the loop has been set to the item.

## Main definitions

* `Stencil.Scope.Denotes`: a scope in which every name stands for its entry in a dictionary.
* `Stencil.Scope.bindAll`: a scope with several bindings.

## Main results

* `Stencil.Scope.Denotes.bind`: a binding overwrites the dictionary that a scope denotes.
* `Stencil.Scope.lookup_bindAll_and_render_bindAll`: chains of bindings and flat maps give the same
  values, outputs and faults.
-/

namespace Stencil

namespace Scope

/-- Every name stands for its entry in the dictionary, or for nothing if it has none there. -/
def Denotes (σ : Scope) (d : Dictionary Value) : Prop :=
  ∀ name, σ.resolve? name = Dictionary.find? name d

/-- The scope with some bindings, the last of them innermost. -/
def bindAll (σ : Scope) (bs : List (String × Value)) : Scope :=
  bs.foldl (fun σ b => σ.bind b.1 b.2) σ

variable {σ : Scope} {d : Dictionary Value}

/-- A scope without bindings denotes the entries of its root. -/
theorem denotes_ofRoot (root : Value) : (ofRoot root).Denotes root.entries :=
  fun _ => rfl

/-- A binding overwrites the dictionary that a scope denotes. -/
theorem Denotes.bind (h : σ.Denotes d) (name : String) (value : Value) :
    (σ.bind name value).Denotes (Dictionary.insert name value d) := by
  intro other
  rw [resolve?_bind, Dictionary.find?_insert, h other]

theorem Denotes.bindAll (h : σ.Denotes d) (bs : List (String × Value)) :
    (σ.bindAll bs).Denotes (Dictionary.insertAll bs d) := by
  induction bs generalizing σ d with
  | nil => exact h
  | cons b bs ih => exact ih (h.bind b.1 b.2)

/-- A scope agrees with the dictionary that it denotes on all names. -/
theorem Denotes.agreeOn (h : σ.Denotes d) (names : List String) :
    AgreeOn names σ (ofRoot (.map d)) := by
  intro name _
  rw [h name, denotes_ofRoot (.map d) name]
  rfl

theorem Denotes.lookup_eq (h : σ.Denotes d) (path : String) :
    σ.lookup path = (ofRoot (.map d)).lookup path :=
  lookup_congr (h.agreeOn [headName path] _ (List.mem_singleton.2 rfl))

theorem Denotes.collection_eq (h : σ.Denotes d) (path : String) :
    σ.collection path = (ofRoot (.map d)).collection path :=
  collection_congr (h.agreeOn [headName path] _ (List.mem_singleton.2 rfl))

theorem Denotes.render_eq (h : σ.Denotes d) (ns : Body) :
    Body.render ns σ = Body.render ns (ofRoot (.map d)) :=
  Body.render_congr (h.agreeOn _)

/-- A loop renders its body, for every item, against a copy of the dictionary in which the name of
the loop is set to the item. -/
theorem Denotes.render_loop_eq (h : σ.Denotes d) (name collection : String) (body : Body) :
    (Node.loop name collection body).render σ =
      ((ofRoot (.map d)).collection collection).bind fun items =>
        (items.mapM fun item =>
          Body.render body (ofRoot (.map (Dictionary.insert name item d)))).map String.join := by
  have hitem : ∀ item, Body.render body (σ.bind name item) =
      Body.render body (ofRoot (.map (Dictionary.insert name item d))) :=
    fun item => (h.bind name item).render_eq body
  simp only [Node.render_loop, h.collection_eq, hitem]

/-- **Chains of bindings are flat maps.** Bindings in front of a root look up and render like the
map of the root that they overwrite in turn, and a loop renders its body, for every item, against a
copy of this map in which the name of the loop is set to the item. -/
theorem lookup_bindAll_and_render_bindAll (root : Value) (bs : List (String × Value)) :
    let chain := (ofRoot root).bindAll bs
    let entries := Dictionary.insertAll bs root.entries
    (∀ path, chain.lookup path = (ofRoot (.map entries)).lookup path) ∧
      (∀ ns, Body.render ns chain = Body.render ns (ofRoot (.map entries))) ∧
      ∀ name collection body, (Node.loop name collection body).render chain =
        ((ofRoot (.map entries)).collection collection).bind fun items =>
          (items.mapM fun item =>
            Body.render body (ofRoot (.map (Dictionary.insert name item entries)))).map
              String.join := by
  intro chain entries
  have hchain : chain.Denotes entries := (denotes_ofRoot root).bindAll bs
  exact ⟨hchain.lookup_eq, hchain.render_eq, hchain.render_loop_eq⟩

-- The last binding of a name counts, and the keys of a path lead on from there.
example :
    let chain := (ofRoot (.map [("x", .str "outer")])).bindAll
      [("x", .str "1"), ("y", .map [("z", .str "2")]), ("x", .str "3")]
    chain.lookup "y.z" = .ok (.str "2") ∧ chain.lookup "x" = .ok (.str "3") ∧
      Body.render [.expression "x", .text "-", .expression "y.z"] chain = .ok "3-2" :=
  ⟨rfl, rfl, rfl⟩

end Scope

end Stencil
