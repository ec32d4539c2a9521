import Stencil.Proofs.Catalog.Sources
import Stencil.Proofs.Concatenation
import Stencil.Proofs.FreeName

/-!
# Pages in layouts

A layout shows the output of its page at the tag `<%= yield %>`. The two sources on the sides of the
tag see the name `yield` only where they mention it, so apart from the tag they are rendered as they
would be on their own, and the output of the page stands between their outputs as it is: it is not
read as a template again, and a value that the context has under `yield` is hidden by it.

## Main definitions

* `Stencil.yieldTag`: the tag that shows the output of the page.

## Main results

* `Stencil.Body.render_bind_of_notMem_freeNames`: a binding of a name that is not free.
* `Stencil.Body.render_around_yield`: the output of a body with the expression `yield` in it.
* `Stencil.Catalog.render_layout_eq_around_output`: a layout puts the output of the page between the
  outputs of its two sides.
-/

namespace Stencil

/-! ### Bindings of names that are not free -/

/-- A binding leaves the other names as they are. -/
theorem Scope.agreeOn_bind_of_notMem {names : List String} {name : String} (h : name ∉ names)
    (σ : Scope) (value : Value) : AgreeOn names (σ.bind name value) σ := by
  intro other hother
  refine resolve?_bind_of_ne ?_ σ value
  rintro rfl
  exact h hother

/-- A binding of a name that is not free in a body does not change the output of the body. -/
theorem Body.render_bind_of_notMem_freeNames {ns : Body} {name : String}
    (h : name ∉ Body.freeNames ns) (σ : Scope) (value : Value) :
    Body.render ns (σ.bind name value) = Body.render ns σ :=
  Body.render_congr (Scope.agreeOn_bind_of_notMem h σ value)

/-- A name without dots is looked up as it is bound. -/
theorem Scope.lookup_bind_self {name : String} (h : '.' ∉ name.toList) (σ : Scope)
    (value : Value) : (σ.bind name value).lookup name = .ok value := by
  have hsplit : Text.split '.' name = [name] := by
    rw [Text.split, Text.pieces_of_notMem h, List.map_singleton, String.ofList_toList]
  rw [lookup_eq_ok_iff, lookup?_eq_bind, headName, hsplit]
  simp [Value.follow?]

/-! ### The tag -/

/-- The tag that shows the output of a page in its layout. -/
def yieldTag : String := "<%= yield %>"

theorem Body.ofSource_yieldTag : Body.ofSource yieldTag = .ok [.expression Catalog.yieldName] := by
  have hitems : Item.ofSource yieldTag = .ok [.expression " yield "] := by decide +kernel
  exact ofSource_of_items hitems

/-- Two sources with the tag between them can be read when both of them can. Neither seam opens or
closes another tag. -/
theorem Body.ofSource_around_yieldTag {a b : String} {ns ms : Body} (ha : ofSource a = .ok ns)
    (hb : ofSource b = .ok ms) :
    ofSource (a ++ yieldTag ++ b) = .ok (join (join ns [.expression Catalog.yieldName]) ms) := by
  have hfront : ofSource (a ++ yieldTag) = .ok (join ns [.expression Catalog.yieldName]) := by
    refine ofSource_append ha ofSource_yieldTag ?_
    rintro ⟨-, hhead⟩
    exact absurd hhead (by decide)
  refine ofSource_append hfront hb ?_
  rintro ⟨hlast, -⟩
  have htag : yieldTag.toList.getLast? = some '>' := by decide
  rw [String.toList_append, List.getLast?_append, htag] at hlast
  cases hlast

/-- Where `yield` stands for a text, a body with the expression `yield` in it puts this text between
the outputs of the two parts. -/
theorem Body.render_around_yield {ns ms : Body} (hns : Catalog.yieldName ∉ Body.freeNames ns)
    (hms : Catalog.yieldName ∉ Body.freeNames ms) (σ : Scope) (output : String) :
    Body.render (join (join ns [.expression Catalog.yieldName]) ms)
        (σ.bind Catalog.yieldName (.str output)) =
      (Body.render ns σ).bind fun before => (Body.render ms σ).map fun behind =>
        before ++ output ++ behind := by
  have hyield : Body.render [.expression Catalog.yieldName]
      (σ.bind Catalog.yieldName (.str output)) = .ok output := by
    rw [Body.render_cons, Node.render, Scope.lookup_bind_self (by decide)]
    simp [Body.render_nil, Value.text, Except.bind, Except.map, bind, pure, Except.pure]
  rw [render_join, render_join, hyield, render_bind_of_notMem_freeNames hns,
    render_bind_of_notMem_freeNames hms]
  cases Body.render ns σ with
  | error fault => rfl
  | ok before => cases Body.render ms σ <;> rfl

/-! ### Layouts -/

namespace Catalog

variable {r : Catalog} {page layout output : String} {context : Option Datum}

/-- A page with an output is published, and the output is that of its body. -/
theorem exists_body_of_render_none (h : r.render page context none = .ok output) :
    ∃ p root, r.get? page = some p ∧ contextValue context = .ok root ∧
      p.template.body.render (.ofRoot root) = .ok output := by
  cases hp : r.get? page with
  | none => rw [render_of_get?_eq_none hp] at h; cases h
  | some p =>
    rw [render_none_of_eq_some hp, Body.evaluate] at h
    cases hroot : contextValue context with
    | error fault => rw [hroot] at h; cases h
    | ok root =>
      rw [hroot] at h
      exact ⟨p, root, rfl, rfl, h⟩

/-- A page that has an output is shown in a layout by the body of the layout, with the output under
the name `yield`. -/
theorem render_some_of_render_none {q : Published} {root : Value} (hq : r.get? layout = some q)
    (hroot : contextValue context = .ok root) (h : r.render page context none = .ok output) :
    r.render page context (some layout) =
      q.template.body.render ((Scope.ofRoot root).bind yieldName (.str output)) := by
  obtain ⟨p, root', hp, hroot', houtput⟩ := exists_body_of_render_none h
  obtain rfl : root = root' := Except.ok.inj (hroot.symm.trans hroot')
  have hpage : p.template.renderValue root = .ok output := houtput
  rw [render_some_of_eq_some hp hq, hroot]
  show (p.template.renderValue root).bind _ = _
  rw [hpage]
  rfl

/-- **A layout puts the output of its page between the outputs of its two sides.** Two sources that
can be read, and in which `yield` is not free, can be read with the tag `<%= yield %>` between them.
As a layout, this source renders a page with an output to the output of the first part, that of the
page and that of the second part, one after the other, or to the fault of the first part, or else to
that of the second one. The two parts are rendered for the context of the page. -/
theorem render_layout_eq_around_output {a b : String} {ns ms : Body} (ha : Body.ofSource a = .ok ns)
    (hb : Body.ofSource b = .ok ms) (hns : yieldName ∉ Body.freeNames ns)
    (hms : yieldName ∉ Body.freeNames ms) :
    (∃ body, Body.ofSource (a ++ yieldTag ++ b) = .ok body) ∧
      ∀ (r : Catalog) (page layout : String), r.Holds layout (a ++ yieldTag ++ b) →
        ∀ context output, r.render page context none = .ok output →
          r.render page context (some layout) =
            (ns.evaluate context).bind fun before => (ms.evaluate context).map fun behind =>
              before ++ output ++ behind := by
  have hsource := Body.ofSource_around_yieldTag ha hb
  refine ⟨⟨_, hsource⟩, ?_⟩
  rintro r page layout ⟨q, hq, hread⟩ context output hpage
  obtain ⟨body, hbody, htemplate⟩ := Template.ofSource_eq_ok_iff.1 hread
  obtain rfl := Except.ok.inj (hsource.symm.trans hbody)
  obtain ⟨p, root, -, hroot, -⟩ := exists_body_of_render_none hpage
  have hevaluate (body : Body) : body.evaluate context = body.render (.ofRoot root) := by
    rw [Body.evaluate, hroot]
    rfl
  rw [render_some_of_render_none hq hroot hpage, htemplate, hevaluate ns, hevaluate ms]
  exact Body.render_around_yield hns hms (.ofRoot root) output

/-- A layout with a loop over `yield` in front of the tag, for a context that has its own `yield`,
and a page whose output holds the mark of a tag. -/
theorem render_layout_eq_around_output_of_own_yield :
    let a := s!"<% for yield in items {openBrace} %>[<%= yield %>]<% {closeBrace} %><"
    let b := s!"%<% if ok {openBrace} %>!<% {closeBrace} %>"
    let ns : Body := [.loop "yield" "items" [.text "[", .expression "yield", .text "]"], .text "<"]
    let ms : Body := [.text "%", .conditional [⟨"ok", [.text "!"]⟩] none]
    let context : Option Datum := some (.record [("items", .seq [.nat 1, .nat 2]),
      ("ok", .bool true), ("tag", .str "<%= x %>"), ("yield", .str "mine")])
    let ops : List Operation := [.insert "layout" (a ++ yieldTag ++ b),
      .insert "page" "<b><%= tag %></b><%= yield %>"]
    Body.ofSource a = .ok ns ∧ Body.ofSource b = .ok ms ∧ yieldName ∉ Body.freeNames ns ∧
      yieldName ∉ Body.freeNames ms ∧ (run ops).Holds "layout" (a ++ yieldTag ++ b) ∧
      (run ops).render "page" context none = .ok "<b><%= x %></b>mine" ∧
      (run ops).render "page" context (some "layout") = .ok "[1][2]<<b><%= x %></b>mine%!" := by
  intro a b ns ms context ops
  have ha : Body.ofSource a = .ok ns := by
    have hitems : Item.ofSource a = .ok [.keyword .forWord, .identifier "yield", .keyword .inWord,
        .identifier "items", .token .leftBrace, .text "[", .expression " yield ", .text "]",
        .token .rightBrace, .text "<"] := by
      decide +kernel
    exact Body.ofSource_of_items hitems
  have hb : Body.ofSource b = .ok ms := by
    have hitems : Item.ofSource b = .ok [.text "%", .keyword .ifWord, .identifier "ok",
        .token .leftBrace, .text "!", .token .rightBrace] := by
      decide +kernel
    exact Body.ofSource_of_items hitems
  have hns : yieldName ∉ Body.freeNames ns := by decide +kernel
  have hms : yieldName ∉ Body.freeNames ms := by decide +kernel
  have hlayout : (run ops).Holds "layout" (a ++ yieldTag ++ b) :=
    (publishes_run (by decide +kernel) (List.Subset.refl _)).1.holds (by decide +kernel)
  have hpage : (run ops).render "page" context none = .ok "<b><%= x %></b>mine" := by
    decide +kernel
  have hfirst : ns.evaluate context = .ok "[1][2]<" := by decide +kernel
  have hsecond : ms.evaluate context = .ok "%!" := by decide +kernel
  refine ⟨ha, hb, hns, hms, hlayout, hpage, ?_⟩
  rw [(render_layout_eq_around_output ha hb hns hms).2 (run ops) "page" "layout" hlayout context _
    hpage, hfirst, hsecond]
  rfl

end Catalog

end Stencil
