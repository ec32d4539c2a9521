import Stencil.Proofs.Grammar
import Stencil.Proofs.Segment.Canonical

/-!
# Text that looks like a tag

A text can hold `<%`, which in a source would open a tag. It is written with a tag without content
between the two characters, so `<%` becomes `<<%%>%`. Such a tag has no items, and the texts on
its two sides are read as one.

## Main definitions

* `Stencil.Text.escape`: how a text is written in a source.
* `Stencil.Segment.ofText`: the segments of a text that is written in this way.

## Main results

* `Stencil.Segment.flatMap_chars_ofText`, `Stencil.Segment.canonical_ofText`: these segments spell
  the escaped text, and they are canonical.
* `Stencil.Grammar.derives_ofText`: they are read as the one text.
-/

namespace Stencil

/-! ### Escaping -/

/-- A text with every `<%` written as `<<%%>%`. -/
def Text.escape : List Char → List Char
  | '<' :: '%' :: r => '<' :: '<' :: '%' :: '%' :: '>' :: '%' :: escape r
  | c :: r => c :: escape r
  | [] => []

theorem Text.escape_mark (r : List Char) :
    escape ('<' :: '%' :: r) = '<' :: '<' :: '%' :: '%' :: '>' :: '%' :: escape r := by
  rw [escape]

theorem Text.escape_cons {c : Char} {r : List Char} (h : ¬ ['<', '%'] <+: c :: r) :
    escape (c :: r) = c :: escape r := by
  rw [escape]
  rintro r' rfl rfl
  exact h ⟨r', rfl⟩

/-- Up to the first `<%`, a text is written as it stands. -/
theorem Text.escape_append {p q : List Char} (hp : ¬ ['<', '%'] <:+: p)
    (hq : q.head? ≠ some '%') : escape (p ++ q) = p ++ escape q := by
  induction p with
  | nil => rfl
  | cons c p ih =>
    rw [List.infix_cons_iff, not_or] at hp
    have hstart : ¬ ['<', '%'] <+: c :: (p ++ q) := by
      cases p with
      | nil =>
        rintro ⟨u, hu⟩
        obtain ⟨-, htail⟩ := List.cons.inj hu
        have htail : '%' :: u = q := htail
        subst htail
        exact hq rfl
      | cons d p => simpa [List.cons_prefix_cons] using hp.1
    rw [List.cons_append, escape_cons hstart, ih hp.2, List.cons_append]

namespace Segment

/-! ### The segments of an escaped text -/

/-- The segments of a text that is written down: an empty tag divides every `<%`. -/
def ofText (s : List Char) : List Segment :=
  match _h : Text.cut? '<' '%' s with
  | none => leading s
  | some (before, behind) =>
    text (String.ofList (before ++ ['<'])) :: code "" :: ofText ('%' :: behind)
termination_by s.length
decreasing_by
  rw [Text.eq_append_of_cut? _h]
  simp only [List.length_append, List.length_cons]
  omega

theorem ofText_of_cut?_eq_none {s : List Char} (h : Text.cut? '<' '%' s = none) :
    ofText s = leading s := by
  rw [ofText]
  split <;> simp_all

theorem ofText_of_cut? {s before behind : List Char}
    (h : Text.cut? '<' '%' s = some (before, behind)) :
    ofText s = text (String.ofList (before ++ ['<'])) :: code "" :: ofText ('%' :: behind) := by
  rw [ofText]
  split
  · simp_all
  · rename_i heq
    obtain ⟨rfl, rfl⟩ := Prod.mk.inj (Option.some.inj (h.symm.trans heq))
    rfl

/-- A property of texts that holds of those without `<%`, and of the others when it holds of what
is left from the `%` on. -/
theorem ofText_induction {P : List Char → Prop} (plain : ∀ s, ¬ ['<', '%'] <:+: s → P s)
    (mark : ∀ before behind, ¬ ['<', '%'] <:+: before ++ ['<'] → P ('%' :: behind) →
      P (before ++ '<' :: '%' :: behind)) (s : List Char) : P s := by
  induction hn : s.length using Nat.strongRecOn generalizing s with
  | _ n ih =>
    cases hcut : Text.cut? '<' '%' s with
    | none => exact plain s (Text.cut?_eq_none_iff.1 hcut)
    | some cut =>
      obtain ⟨before, behind⟩ := cut
      obtain ⟨rfl, hbefore⟩ := Text.cut?_eq_some_iff.1 hcut
      refine mark before behind hbefore (ih _ ?_ _ rfl)
      simp only [List.length_append, List.length_cons] at hn ⊢
      omega

theorem ofText_plain {s : List Char} (h : ¬ ['<', '%'] <:+: s) : ofText s = leading s :=
  ofText_of_cut?_eq_none (Text.cut?_eq_none_iff.2 h)

theorem ofText_append_mark {before : List Char} (h : ¬ ['<', '%'] <:+: before ++ ['<'])
    (behind : List Char) : ofText (before ++ '<' :: '%' :: behind) =
      text (String.ofList (before ++ ['<'])) :: code "" :: ofText ('%' :: behind) :=
  ofText_of_cut? (Text.cut?_eq_some_iff.2 ⟨rfl, h⟩)

/-- The segments of a text spell the text with its `<%` escaped. -/
theorem flatMap_chars_ofText (s : List Char) : (ofText s).flatMap chars = Text.escape s := by
  induction s using ofText_induction with
  | plain s h =>
    have hescape := Text.escape_append h (q := []) (by simp)
    rw [List.append_nil] at hescape
    rw [ofText_plain h, flatMap_chars_leading, hescape, Text.escape, List.append_nil]
  | mark before behind h ih =>
    have hbefore := (not_congr (Text.mark_infix_concat_iff (by decide))).1 h
    have hbehind : Text.escape ('%' :: behind) = '%' :: Text.escape behind :=
      Text.escape_cons (by simp [List.cons_prefix_cons])
    rw [ofText_append_mark h, Text.escape_append hbefore (by simp), Text.escape_mark]
    rw [List.flatMap_cons, List.flatMap_cons, ih, hbehind]
    simp [chars]

/-- The segments of a text are canonical. -/
theorem canonical_ofText (s : List Char) : Canonical (ofText s) := by
  induction s using ofText_induction with
  | plain s h =>
    have hleading := canonical_nil.leading_append h (by simp)
    rwa [ofText_plain h, ← List.append_nil (leading s)]
  | mark before behind h ih =>
    have htext : (text (String.ofList (before ++ ['<']))).IsProper := by
      refine ⟨fun heq => ?_, by rwa [String.toList_ofList]⟩
      have hlist := congrArg String.toList heq
      simp at hlist
    have hcode : (code "").IsProper := ⟨by decide, by decide⟩
    rw [ofText_append_mark h]
    refine canonical_cons_iff.2 ⟨htext, canonical_cons_iff.2 ⟨hcode, ih, ?_⟩, ?_⟩
    · exact fun hcode => absurd hcode Bool.false_ne_true
    · simp

theorem ofText_ne_nil {s : List Char} (hs : s ≠ []) : ofText s ≠ [] := by
  cases hcut : Text.cut? '<' '%' s with
  | none =>
    rw [ofText_of_cut?_eq_none hcut]
    cases s with
    | nil => exact absurd rfl hs
    | cons c r => simp [leading]
  | some cut =>
    rw [ofText_of_cut? hcut]
    simp

end Segment

/-! ### Reading an escaped text -/

/-- The segments of a text are read as the text. -/
theorem Grammar.derives_ofText (s : List Char) {items : List Item} {ns : Body}
    (h : Derives items (.body ns)) :
    Derives ((Segment.ofText s).flatMap Item.ofSegment ++ items)
      (.body (ns.prependText (String.ofList s))) := by
  induction s using Segment.ofText_induction with
  | plain s hs =>
    rw [Segment.ofText_plain hs]
    cases s with
    | nil => simpa [Segment.leading] using h
    | cons c r => exact .text _ h
  | mark before behind hbefore ih =>
    rw [Segment.ofText_append_mark hbefore]
    have hsplit : String.ofList (before ++ '<' :: '%' :: behind) =
        String.ofList (before ++ ['<']) ++ String.ofList ('%' :: behind) := by
      rw [← String.ofList_append, List.append_assoc]
      rfl
    have hcode : Item.ofSegment (.code "") = [] := by
      rw [Item.ofSegment, Token.ofCode, String.toList_empty, Token.ofChars_nil, List.map_nil]
    rw [hsplit, ← Body.prependText_prependText, List.flatMap_cons, List.flatMap_cons, hcode]
    exact .text _ ih

end Stencil
