import Stencil.Proofs.Body.Print
import Stencil.Proofs.Fallible
import Stencil.Proofs.FreeName

/-!
# Names of loops

Whatever reads as an identifier can be the name of a loop, also a word with dots in it. A path,
though, is split at its dots before anything is looked up, so the name that is looked up never has a
dot. A binding of a name without dots is therefore found under that name, and a binding of a name
with dots is found by no path at all: the body of such a loop renders as it does outside of it.

## Main definitions

* `Stencil.Node.loopHeaders`, `Stencil.Body.loopHeaders`: the names and collections of the loops in
  a node and in a body, at any depth.
* `Stencil.Node.showItems`: the loop that shows the items of a collection.

## Main results

* `Stencil.Body.isName_of_mem_loopHeaders`: the loops of a source have names.
* `Stencil.Scope.lookup_bind_of_notMem_dot`, `Stencil.Body.render_bind_of_mem_dot`: bindings of
  names without and with dots.
* `Stencil.Body.lookup_loopName_iff`: the names under which a loop finds its item.
-/

namespace Stencil

/-! ### Names without dots -/

namespace Scope

variable {σ : Scope} {name : String}

/-- The name that a path starts with has no dot. -/
theorem dot_notMem_headName (path : String) : '.' ∉ (headName path).toList := by
  rw [headName, Text.split]
  cases h : Text.pieces '.' path.toList with
  | nil => exact absurd h (Text.pieces_ne_nil _)
  | cons p ps =>
    rw [List.map_cons, List.headD_cons, String.toList_ofList]
    exact Text.notMem_of_mem_pieces (h ▸ List.mem_cons_self)

/-- A binding of a name without dots is found under that name. -/
theorem lookup_bind_of_notMem_dot (h : '.' ∉ name.toList) (σ : Scope) (value : Value) :
    (σ.bind name value).lookup name = .ok value := by
  rw [lookup_eq_ok_iff, lookup?_of_notMem_dot h, resolve?_bind_self]

/-- A binding of a name with dots changes no name without dots. -/
theorem resolve?_bind_of_mem_dot (h : '.' ∈ name.toList) {other : String}
    (hother : '.' ∉ other.toList) (σ : Scope) (value : Value) :
    (σ.bind name value).resolve? other = σ.resolve? other := by
  have hne : name ≠ other := fun heq => hother (heq ▸ h)
  exact resolve?_bind_of_ne hne σ value

/-- A binding of a name with dots is found by no path. -/
theorem lookup_bind_of_mem_dot (h : '.' ∈ name.toList) (σ : Scope) (value : Value) (path : String) :
    (σ.bind name value).lookup path = σ.lookup path :=
  lookup_congr (resolve?_bind_of_mem_dot h (dot_notMem_headName path) σ value)

/-- A name finds what is bound to it, in every scope, when it has no dot, and only then. -/
theorem forall_lookup_bind_iff :
    (∀ (σ : Scope) value, (σ.bind name value).lookup name = .ok value) ↔ '.' ∉ name.toList := by
  refine ⟨fun hfound hdot => ?_, fun h => lookup_bind_of_notMem_dot h⟩
  have hnone : (ofRoot .null).lookup name = .error (.variableNotFound name) :=
    lookup_eq_error_iff.2 ⟨by rw [lookup?_eq_bind]; rfl, rfl⟩
  have hbound := hfound (ofRoot .null) .null
  rw [lookup_bind_of_mem_dot hdot, hnone] at hbound
  cases hbound

end Scope

/-! ### Free names have no dots -/

mutual

theorem Node.dot_notMem_of_mem_freeNames {n : Node} {name : String} (h : name ∈ n.freeNames) :
    '.' ∉ name.toList := by
  match n with
  | .text s => simp [Node.freeNames] at h
  | .expression path =>
    rw [Node.freeNames, List.mem_singleton] at h
    exact h ▸ Scope.dot_notMem_headName path
  | .conditional branches alternative =>
    rcases List.mem_append.1 h with hbranches | halternative
    · exact Branch.dot_notMem_of_mem_freeNames hbranches
    · exact Body.dot_notMem_of_mem_freeNamesOption halternative
  | .loop _ collection body =>
    rcases List.mem_cons.1 h with rfl | hbody
    · exact Scope.dot_notMem_headName collection
    · exact Body.dot_notMem_of_mem_freeNames (List.mem_filter.1 hbody).1

theorem Branch.dot_notMem_of_mem_freeNames {branches : List Branch} {name : String}
    (h : name ∈ Branch.freeNames branches) : '.' ∉ name.toList := by
  match branches with
  | [] => simp [Branch.freeNames] at h
  | ⟨condition, body⟩ :: branches =>
    rcases List.mem_cons.1 h with rfl | hrest
    · exact Scope.dot_notMem_headName condition
    · rcases List.mem_append.1 hrest with hbody | hbranches
      · exact Body.dot_notMem_of_mem_freeNames hbody
      · exact Branch.dot_notMem_of_mem_freeNames hbranches

theorem Body.dot_notMem_of_mem_freeNamesOption {alternative : Option Body} {name : String}
    (h : name ∈ Body.freeNamesOption alternative) : '.' ∉ name.toList := by
  match alternative with
  | none => simp [Body.freeNamesOption] at h
  | some body =>
    have hbody : name ∈ Body.freeNames body := h
    exact Body.dot_notMem_of_mem_freeNames hbody

theorem Body.dot_notMem_of_mem_freeNames {ns : Body} {name : String}
    (h : name ∈ Body.freeNames ns) : '.' ∉ name.toList := by
  match ns with
  | [] => simp [Body.freeNames] at h
  | n :: ns =>
    rcases List.mem_append.1 h with hn | hns
    · exact Node.dot_notMem_of_mem_freeNames hn
    · exact Body.dot_notMem_of_mem_freeNames hns

end

/-- A binding of a name with dots changes no output. -/
theorem Body.render_bind_of_mem_dot {name : String} (h : '.' ∈ name.toList) (σ : Scope)
    (value : Value) (ns : Body) : render ns (σ.bind name value) = render ns σ :=
  render_congr fun _ hother =>
    Scope.resolve?_bind_of_mem_dot h (dot_notMem_of_mem_freeNames hother) σ value

/-! ### The loops of a source -/

mutual

/-- The names and collections of the loops in a node. -/
def Node.loopHeaders : Node → List (String × String)
  | .text _ => []
  | .expression _ => []
  | .conditional branches alternative =>
    Branch.loopHeaders branches ++ Body.loopHeadersOption alternative
  | .loop name collection body => (name, collection) :: Body.loopHeaders body

/-- The names and collections of the loops in branches. -/
def Branch.loopHeaders : List Branch → List (String × String)
  | [] => []
  | ⟨_, body⟩ :: branches => Body.loopHeaders body ++ Branch.loopHeaders branches

/-- The names and collections of the loops in an alternative. -/
def Body.loopHeadersOption : Option Body → List (String × String)
  | none => []
  | some body => Body.loopHeaders body

/-- The names and collections of the loops in a body. -/
def Body.loopHeaders : Body → List (String × String)
  | [] => []
  | n :: ns => n.loopHeaders ++ Body.loopHeaders ns

end

mutual

theorem Node.WellFormed.isName_of_mem_loopHeaders {n : Node} (h : n.WellFormed)
    {header : String × String} (hmem : header ∈ n.loopHeaders) :
    Token.IsName header.1 ∧ Token.IsName header.2 := by
  match n, h with
  | .text s, _ => simp [Node.loopHeaders] at hmem
  | .expression path, _ => simp [Node.loopHeaders] at hmem
  | .conditional branches alternative, ⟨_, hbranches, halternative⟩ =>
    rcases List.mem_append.1 hmem with hin | hin
    · exact Branch.AllWellFormed.isName_of_mem_loopHeaders hbranches hin
    · exact Body.WellFormedOption.isName_of_mem_loopHeaders halternative hin
  | .loop name collection body, ⟨hname, hcollection, hbody⟩ =>
    rcases List.mem_cons.1 hmem with rfl | hin
    · exact ⟨hname, hcollection⟩
    · exact Body.WellFormed.isName_of_mem_loopHeaders hbody hin

theorem Branch.AllWellFormed.isName_of_mem_loopHeaders {branches : List Branch}
    (h : Branch.AllWellFormed branches) {header : String × String}
    (hmem : header ∈ Branch.loopHeaders branches) :
    Token.IsName header.1 ∧ Token.IsName header.2 := by
  match branches, h with
  | [], _ => simp [Branch.loopHeaders] at hmem
  | ⟨condition, body⟩ :: branches, ⟨_, hbody, hbranches⟩ =>
    rcases List.mem_append.1 hmem with hin | hin
    · exact Body.WellFormed.isName_of_mem_loopHeaders hbody hin
    · exact Branch.AllWellFormed.isName_of_mem_loopHeaders hbranches hin

theorem Body.WellFormedOption.isName_of_mem_loopHeaders {alternative : Option Body}
    (h : Body.WellFormedOption alternative) {header : String × String}
    (hmem : header ∈ Body.loopHeadersOption alternative) :
    Token.IsName header.1 ∧ Token.IsName header.2 := by
  match alternative, h with
  | none, _ => simp [Body.loopHeadersOption] at hmem
  | some body, h =>
    have hbody : Body.WellFormed body := h
    exact Body.WellFormed.isName_of_mem_loopHeaders hbody hmem

theorem Body.WellFormed.isName_of_mem_loopHeaders {ns : Body} (h : Body.WellFormed ns)
    {header : String × String} (hmem : header ∈ Body.loopHeaders ns) :
    Token.IsName header.1 ∧ Token.IsName header.2 := by
  match ns, h with
  | [], _ => simp [Body.loopHeaders] at hmem
  | n :: ns, ⟨hn, hns, _⟩ =>
    rcases List.mem_append.1 hmem with hin | hin
    · exact Node.WellFormed.isName_of_mem_loopHeaders hn hin
    · exact Body.WellFormed.isName_of_mem_loopHeaders hns hin

end

/-- The loops of a source have names, and their collections are names too. -/
theorem Body.isName_of_mem_loopHeaders {source : String} {ns : Body} (h : ofSource source = .ok ns)
    {name collection : String} (hloop : (name, collection) ∈ loopHeaders ns) :
    Token.IsName name ∧ Token.IsName collection :=
  (wellFormed_of_ofSource h).isName_of_mem_loopHeaders hloop

/-! ### Showing the items of a collection -/

/-- A name stands in an expression as it is. -/
theorem Token.IsName.isTrimmed {w : String} (h : IsName w) : Text.IsTrimmed w.toList :=
  ⟨fun c hc => h.isBlank_eq_false c (List.mem_of_mem_head? hc),
    fun c hc => h.isBlank_eq_false c (List.mem_of_mem_getLast? hc)⟩

namespace Node

/-- The loop that shows the items of a collection, one behind the other. -/
def showItems (name collection : String) : Node :=
  loop name collection [expression name]

variable {name collection : String} {σ : Scope} {items : List Value}

theorem wellFormed_showItems (hname : Token.IsName name) (hcollection : Token.IsName collection) :
    Body.WellFormed [showItems name collection] := by
  have hexpression : (expression name).WellFormed := ⟨hname.isTrimmed, hname.not_close⟩
  have hbody : Body.WellFormed [expression name] :=
    Body.WellFormed.cons hexpression rfl trivial
  exact Body.WellFormed.cons ⟨hname, hcollection, hbody⟩ rfl trivial

/-- A name without dots shows the items. -/
theorem render_showItems_of_notMem_dot (hname : '.' ∉ name.toList)
    (hitems : σ.collection collection = .ok items) :
    (showItems name collection).render σ = .ok (String.join (items.map Value.text)) := by
  have hitem : ∀ item ∈ items,
      Body.render [expression name] (σ.bind name item) = pure item.text := by
    intro item _
    rw [Body.render_singleton, Node.render, Scope.lookup_bind_of_notMem_dot hname]
    rfl
  rw [showItems, render_loop, hitems]
  simp only [Except.bind]
  rw [mapM_congr hitem, List.mapM_pure]
  rfl

/-- A loop with dots in its name renders its body in the scope around it, once for every item. -/
theorem render_loop_of_mem_dot {body : Body} (hname : '.' ∈ name.toList)
    (hitems : σ.collection collection = .ok items) :
    (loop name collection body).render σ =
      (items.mapM fun _ => Body.render body σ).map String.join := by
  rw [render_loop, hitems]
  simp only [Except.bind, Body.render_bind_of_mem_dot hname]

/-- The template of this loop. -/
theorem print_showItems (name collection : String) :
    Body.print [showItems name collection] =
      s!"<% for {name} in {collection} {openBrace} %><%= {name} %><% {closeBrace} %>" := by
  show _ = "<% for " ++ name ++ " in " ++ collection ++ " " ++ openBrace ++ " %><%= " ++ name ++
    " %><% " ++ closeBrace ++ " %>"
  -- Where one tag ends and the next one starts, the texts of both are one text on the right.
  have hopening : " %><%= " = " %>" ++ "<%= " := rfl
  have hclosing : " %><% " = " %>" ++ "<% " := rfl
  simp only [showItems, Body.print, print, Body.opening, Body.closing, hopening, hclosing,
    String.append_assoc, String.append_empty]

/-- What this loop shows: the items, or with dots in its name what the name stands for outside of
the loop, once for every item. -/
theorem render_showItems (hitems : σ.collection collection = .ok items) :
    Body.render [showItems name collection] σ =
      if '.' ∈ name.toList then
        (items.mapM fun _ => Body.render [expression name] σ).map String.join
      else .ok (String.join (items.map Value.text)) := by
  rw [Body.render_singleton]
  split
  · rename_i hname
    exact render_loop_of_mem_dot hname hitems
  · rename_i hname
    exact render_showItems_of_notMem_dot hname hitems

end Node

/-- **A loop finds its item under a name without dots.** The name of a loop in a source stands for
the item in every scope when it has no dot, and only then: what is bound to a name with dots is
found by no path and changes no output. Every loop can be made to show its items instead, in a
template of its own; with dots in its name this shows, once for every item, what the name stands for
outside. -/
theorem Body.lookup_loopName_iff {source : String} {ns : Body} (h : ofSource source = .ok ns)
    {name collection : String} (hloop : (name, collection) ∈ loopHeaders ns) :
    ((∀ (σ : Scope) item, (σ.bind name item).lookup name = .ok item) ↔ '.' ∉ name.toList) ∧
    ('.' ∈ name.toList → ∀ (σ : Scope) item,
      (∀ path, (σ.bind name item).lookup path = σ.lookup path) ∧
        ∀ body, render body (σ.bind name item) = render body σ) ∧
    ofSource s!"<% for {name} in {collection} {openBrace} %><%= {name} %><% {closeBrace} %>" =
      .ok [.showItems name collection] ∧
    ∀ (σ : Scope) items, σ.collection collection = .ok items →
      render [.showItems name collection] σ =
        if '.' ∈ name.toList then (items.mapM fun _ => render [.expression name] σ).map String.join
        else .ok (String.join (items.map Value.text)) := by
  obtain ⟨hname, hcollection⟩ := isName_of_mem_loopHeaders h hloop
  refine ⟨Scope.forall_lookup_bind_iff, fun hdot σ item => ⟨?_, ?_⟩, ?_, fun σ items hitems => ?_⟩
  · exact Scope.lookup_bind_of_mem_dot hdot σ item
  · exact render_bind_of_mem_dot hdot σ item
  · rw [← Node.print_showItems]
    exact ofSource_print (Node.wellFormed_showItems hname hcollection)
  · exact Node.render_showItems hitems

/-- A loop inside a branch, with and without a dot in its name. -/
theorem Body.lookup_loopName_iff_in_branch :
    let loops : Body := [.showItems "row" "rows", .showItems "a.b" "rows"]
    let ns : Body := [.conditional [⟨"shown", loops⟩] none]
    let σ := Scope.ofRoot (.map [("rows", .list [.str "x", .nat 2])])
    ofSource (print ns) = .ok ns ∧ ("row", "rows") ∈ loopHeaders ns ∧
      ("a.b", "rows") ∈ loopHeaders ns ∧
      (σ.bind "row" .null).lookup "row" = .ok .null ∧
      (σ.bind "a.b" .null).lookup "a.b" = σ.lookup "a.b" ∧
      render [.showItems "row" "rows"] σ = .ok "x2" := by
  intro loops ns σ
  have hrow : Token.IsName "row" := by decide
  have hdotted : Token.IsName "a.b" := by decide
  have hrows : Token.IsName "rows" := by decide
  have hloops : WellFormed loops :=
    ⟨(Node.wellFormed_showItems hrow hrows).1, Node.wellFormed_showItems hdotted hrows, nofun⟩
  have hns : WellFormed ns :=
    ⟨⟨List.cons_ne_nil _ _, ⟨by decide, hloops, trivial⟩, trivial⟩, trivial, nofun⟩
  have hread := ofSource_print hns
  have hin : ("row", "rows") ∈ loopHeaders ns := by decide
  have hin' : ("a.b", "rows") ∈ loopHeaders ns := by decide
  obtain ⟨hfound, -, -, hshown⟩ := lookup_loopName_iff hread hin
  obtain ⟨-, hunseen, -, -⟩ := lookup_loopName_iff hread hin'
  refine ⟨hread, hin, hin', hfound.2 (by decide) σ .null, ?_, hshown σ _ rfl⟩
  exact (hunseen (by decide) σ .null).1 "a.b"

/-- The dot keeps the loop from showing its one item. -/
theorem Body.render_showItems_dotted :
    let σ := Scope.ofRoot (.map [("xs", .list [.str "x"])])
    ofSource s!"<% for a.b in xs {openBrace} %><%= a.b %><% {closeBrace} %>" =
        .ok [.showItems "a.b" "xs"] ∧
      σ.collection "xs" = .ok [.str "x"] ∧
      (σ.bind "a.b" (.str "x")).lookup "a.b" = .error (.variableNotFound "a.b") ∧
      render [.showItems "a.b" "xs"] σ = .error (.variableNotFound "a.b") := by
  intro σ
  have hread : ofSource (print [.showItems "a.b" "xs"]) = .ok [.showItems "a.b" "xs"] :=
    ofSource_print (Node.wellFormed_showItems (by decide) (by decide))
  refine ⟨?_, rfl, rfl, rfl⟩
  rwa [Node.print_showItems] at hread

end Stencil
