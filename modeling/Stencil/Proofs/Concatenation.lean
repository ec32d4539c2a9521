import Stencil.Proofs.Body.WellFormed
import Stencil.Proofs.Grammar.Seam
import Stencil.Template

/-!
# Templates one after the other

Two sources that can be read may be written one after the other. Unless the first one ends in `<`
and the second one starts with `%`, no tag is opened across the seam, and the segments of the whole
are those of the two parts, with the text on the left of the seam and the one on the right made one.
Nothing of the first part is under way where the second part starts: its blocks are closed, and the
second part does not start with `else`. So the body of the whole is that of the two parts joined,
and its output is their outputs one after the other.

## Main results

* `Stencil.Segment.ofSource_append_of_apart`, `Stencil.Segment.ofSource_append_texts`: the segments
  of the whole.
* `Stencil.Body.ofSource_append`: the body of the whole.
* `Stencil.Body.render_join`: the output of two bodies that are joined.
* `Stencil.Body.ofSource_append_and_render_append`: the body and the output of the whole.
-/

namespace Stencil

/-! ### Segments -/

namespace Segment

/-- Canonical sequences one after the other, with the two texts at the seam made one. -/
theorem Canonical.append_texts {before behind : List Segment} {s t : String}
    (h : Canonical (before ++ [text s])) (h' : Canonical (text t :: behind))
    (hmark : ¬ ['<', '%'] <:+: (s ++ t).toList) :
    Canonical (before ++ text (s ++ t) :: behind) := by
  obtain ⟨hproper, hseparated⟩ := h
  obtain ⟨ht, hbehind, hhead⟩ := canonical_cons_iff.1 h'
  have hs : (text s).IsProper := hproper _ (by simp)
  have htext : (text (s ++ t)).IsProper := ⟨by simp [hs.1], hmark⟩
  obtain ⟨hbefore, -, hmeet⟩ := List.isChain_append.1 hseparated
  have hbefore : Canonical before := ⟨fun g hg => hproper g (by simp [hg]), hbefore⟩
  refine hbefore.append (canonical_cons_iff.2 ⟨htext, hbehind, hhead⟩) ?_
  rintro g hg g' hg'
  obtain rfl : text (s ++ t) = g' := by simpa using hg'
  exact hmeet g hg (text s) (by simp)

/-- Proper texts on the two sides of a seam across which no tag is opened make no mark. -/
theorem not_mark_infix_append {s t : String} (hs : (text s).IsProper) (ht : (text t).IsProper)
    (hseam : ¬ (s.toList.getLast? = some '<' ∧ t.toList.head? = some '%')) :
    ¬ ['<', '%'] <:+: (s ++ t).toList := by
  rw [String.toList_append, Text.mark_infix_append_iff, not_or, not_or]
  exact ⟨hs.2, ht.2, hseam⟩

/-- Sources one after the other without texts that meet have the segments of both. -/
theorem ofSource_append_of_apart {a b : String} {segments segments' : List Segment}
    (ha : ofSource a = .ok segments) (hb : ofSource b = .ok segments')
    (hapart : ∀ before s t behind,
      ¬ (segments = before ++ [text s] ∧ segments' = text t :: behind)) :
    ofSource (a ++ b) = .ok (segments ++ segments') := by
  have hwhole : join (segments ++ segments') = a ++ b := by
    rw [join_eq_iff, String.toList_append, List.flatMap_append, flatMap_chars_of_ofChars ha,
      flatMap_chars_of_ofChars hb]
  rw [← hwhole]
  refine ofSource_join ((canonical_of_ofChars ha).append (canonical_of_ofChars hb) ?_)
  rintro g hg g' hg' ⟨htext, htext'⟩
  obtain ⟨before, rfl⟩ := List.getLast?_eq_some_iff.1 hg
  obtain ⟨behind, rfl⟩ := List.head?_eq_some_iff.1 hg'
  cases g with
  | text s =>
    cases g' with
    | text t => exact hapart before s t behind ⟨rfl, rfl⟩
    | _ => cases htext'
  | _ => cases htext

/-- Texts that meet become one when no tag is opened across the seam. -/
theorem ofSource_append_texts {a b : String} {before behind : List Segment} {s t : String}
    (ha : ofSource a = .ok (before ++ [text s])) (hb : ofSource b = .ok (text t :: behind))
    (hseam : ¬ (a.toList.getLast? = some '<' ∧ b.toList.head? = some '%')) :
    ofSource (a ++ b) = .ok (before ++ text (s ++ t) :: behind) := by
  have hcanonical := canonical_of_ofChars ha
  have hcanonical' := canonical_of_ofChars hb
  have hspell : before.flatMap chars ++ s.toList = a.toList := by
    simpa [chars] using flatMap_chars_of_ofChars ha
  have hspell' : t.toList ++ behind.flatMap chars = b.toList := by
    simpa [chars] using flatMap_chars_of_ofChars hb
  have hmark : ¬ ['<', '%'] <:+: (s ++ t).toList := by
    refine not_mark_infix_append (hcanonical.isProper _ (by simp))
      (hcanonical'.isProper _ (by simp)) ?_
    rintro ⟨hlast, hhead⟩
    refine hseam ⟨?_, ?_⟩
    · rw [← hspell, List.getLast?_append, hlast]
      rfl
    · rw [← hspell', List.head?_append, hhead]
      rfl
  have hwhole : join (before ++ text (s ++ t) :: behind) = a ++ b := by
    rw [join_eq_iff, String.toList_append, ← hspell, ← hspell']
    simp [chars]
  rw [← hwhole]
  exact ofSource_join (hcanonical.append_texts hcanonical' hmark)

end Segment

/-! ### Bodies -/

namespace Body

/-- The body of two sources one after the other when no tag is opened across the seam. -/
theorem ofSource_append {a b : String} {ns ms : Body} (ha : ofSource a = .ok ns)
    (hb : ofSource b = .ok ms)
    (hseam : ¬ (a.toList.getLast? = some '<' ∧ b.toList.head? = some '%')) :
    ofSource (a ++ b) = .ok (ns.join ms) := by
  obtain ⟨items, hitems, hns⟩ := ofSource_eq_ok_iff.1 ha
  obtain ⟨items', hitems', hms⟩ := ofSource_eq_ok_iff.1 hb
  obtain ⟨segments, hsegments, rfl⟩ := Item.ofSource_eq_ok_iff.1 hitems
  obtain ⟨segments', hsegments', rfl⟩ := Item.ofSource_eq_ok_iff.1 hitems'
  by_cases hmeet : ∃ before s t behind,
      segments = before ++ [.text s] ∧ segments' = .text t :: behind
  · obtain ⟨before, s, t, behind, rfl, rfl⟩ := hmeet
    have hwhole := Segment.ofSource_append_texts hsegments hsegments' hseam
    refine ofSource_eq_ok_iff.2 ⟨_, Item.ofSource_eq_ok_iff.2 ⟨_, hwhole, rfl⟩, ?_⟩
    rw [List.flatMap_append, List.flatMap_cons, List.flatMap_nil, List.append_nil] at hns
    rw [List.flatMap_append, List.flatMap_cons]
    exact hns.append_texts hms
  · have hapart : ∀ before s t behind,
        ¬ (segments = before ++ [.text s] ∧ segments' = .text t :: behind) := by
      intro before s t behind h
      exact hmeet ⟨before, s, t, behind, h⟩
    have hwhole := Segment.ofSource_append_of_apart hsegments hsegments' hapart
    refine ofSource_eq_ok_iff.2 ⟨_, Item.ofSource_eq_ok_iff.2 ⟨_, hwhole, rfl⟩, ?_⟩
    rw [List.flatMap_append]
    exact hns.append hms

/-- The output of two bodies that are joined: that of the second one behind that of the first one,
or the fault of the first one that has one. -/
theorem render_join (ns ms : Body) (σ : Scope) :
    render (join ns ms) σ =
      (render ns σ).bind fun output => (render ms σ).map fun rest => output ++ rest := by
  unfold join
  split
  · rename_i s t ms hlast
    obtain ⟨before, rfl⟩ := List.getLast?_eq_some_iff.1 hlast
    rw [List.dropLast_concat, render_append, render_append, render_cons, render_cons, render_cons,
      render_nil]
    cases render before σ with
    | error fault => rfl
    | ok output =>
      cases render ms σ with
      | error fault => rfl
      | ok rest => simp [Node.render, Except.bind, Except.map, String.append_assoc]
  · exact render_append ns _ σ

/-- **Templates one after the other.** When no tag is opened across the seam, the body of two
sources one after the other is that of the first one joined to that of the second one. So for every
root value the whole renders to the two outputs one after the other, or to the fault of the first
part, or else to that of the second one. -/
theorem ofSource_append_and_render_append {a b : String} {ns ms : Body} (ha : ofSource a = .ok ns)
    (hb : ofSource b = .ok ms)
    (hseam : ¬ (a.toList.getLast? = some '<' ∧ b.toList.head? = some '%')) :
    ofSource (a ++ b) = .ok (ns.join ms) ∧
      ∀ root : Value,
        ((ofSource (a ++ b)).bind fun whole => whole.render (.ofRoot root)) =
          ((ofSource a).bind fun first => first.render (.ofRoot root)).bind fun output =>
            ((ofSource b).bind fun second => second.render (.ofRoot root)).map fun rest =>
              output ++ rest := by
  have hwhole := ofSource_append ha hb hseam
  refine ⟨hwhole, fun root => ?_⟩
  rw [hwhole, ha, hb]
  exact render_join ns ms (.ofRoot root)

/-- A closed block with `<` behind it, and a source that starts with a word that could go on with
the block, were it not text; rendered where both conditions hold, and where the second one is
missing. -/
theorem ofSource_append_and_render_append_else :
    let a := s!"<% if c {openBrace} %>x<% {closeBrace} %> <"
    let b := s!"else><% if d {openBrace} %>y<% {closeBrace} %>"
    let ns : Body := [.conditional [⟨"c", [.text "x"]⟩] none, .text " <"]
    let ms : Body := [.text "else>", .conditional [⟨"d", [.text "y"]⟩] none]
    let output (root : Value) := (ofSource (a ++ b)).bind fun whole => whole.render (.ofRoot root)
    ofSource a = .ok ns ∧ ofSource b = .ok ms ∧
      ¬ (a.toList.getLast? = some '<' ∧ b.toList.head? = some '%') ∧
      ofSource (a ++ b) = .ok [.conditional [⟨"c", [.text "x"]⟩] none, .text " <else>",
        .conditional [⟨"d", [.text "y"]⟩] none] ∧
      output (.map [("c", .bool true), ("d", .bool true)]) = .ok "x <else>y" ∧
      output (.map [("c", .bool true)]) = .error (.variableNotFound "d") := by
  intro a b ns ms output
  have ha : ofSource a = .ok ns := by
    have hitems : Item.ofSource a = .ok [.keyword .ifWord, .identifier "c", .token .leftBrace,
        .text "x", .token .rightBrace, .text " <"] := by
      decide +kernel
    rw [ofSource, hitems]
    rfl
  have hb : ofSource b = .ok ms := by
    have hitems : Item.ofSource b = .ok [.text "else>", .keyword .ifWord, .identifier "d",
        .token .leftBrace, .text "y", .token .rightBrace] := by
      decide +kernel
    rw [ofSource, hitems]
    rfl
  have hseam : ¬ (a.toList.getLast? = some '<' ∧ b.toList.head? = some '%') := by
    decide +kernel
  obtain ⟨hwhole, houtput⟩ := ofSource_append_and_render_append ha hb hseam
  refine ⟨ha, hb, hseam, hwhole, (houtput _).trans ?_, (houtput _).trans ?_⟩
  · rw [ha, hb]
    rfl
  · rw [ha, hb]
    rfl

end Body

end Stencil
