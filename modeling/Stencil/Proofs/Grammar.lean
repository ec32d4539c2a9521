import Stencil.Proofs.Body.Join
import Stencil.Proofs.Gap

/-!
# The grammar of templates

A template is a body: texts, expressions and blocks in any order. The grammar says which sequences
of items are bodies, and with which tree. Writing `~` for a gap, it reads

* body: any sequence of texts, expressions and blocks,
* block: `if opening body }` with its arms, or `for opening body }`,
* arms: any number of `~ else ~ if opening body }`, then at most one `~ else ~ { body }`,
* opening after `if`: `~ condition ~ {`, where a condition is `name` or `( ~ name ~ )`,
* opening after `for`: `~ header ~ {`, where a header is `name ~ in ~ name` or
  `( ~ name ~ in ~ name ~ )`.

The tree has a node for every block and expression. Texts next to each other are one node, and empty
text is none.

## Main definitions

* `Stencil.Grammar.Condition`, `Stencil.Grammar.LoopHeader`: what stands between the keyword of a
  block and its brace.
* `Stencil.Grammar.Opening`, `Stencil.Grammar.LoopOpening`: the same with the gaps and the brace.
* `Stencil.Grammar.Form`, `Stencil.Grammar.Derives`: the derivations of bodies, blocks and arms.
-/

namespace Stencil.Grammar

open Item

/-! ### Headers -/

/-- The items of a condition. -/
inductive Condition (c : String) : List Item → Prop where
  | plain : Condition c [identifier c]
  | parens {g h : List Item} (hg : IsGap g) (hh : IsGap h) :
      Condition c (token .leftParen :: (g ++ identifier c :: (h ++ [token .rightParen])))

/-- The items of the header of a loop. -/
inductive LoopHeader (x c : String) : List Item → Prop where
  | plain {g h : List Item} (hg : IsGap g) (hh : IsGap h) :
      LoopHeader x c (identifier x :: (g ++ keyword .inWord :: (h ++ [identifier c])))
  | parens {f g h k : List Item} (hf : IsGap f) (hg : IsGap g) (hh : IsGap h) (hk : IsGap k) :
      LoopHeader x c (token .leftParen :: (f ++ identifier x :: (g ++ keyword .inWord ::
        (h ++ identifier c :: (k ++ [token .rightParen])))))

/-- What follows `if`, up to the brace. -/
inductive Opening (c : String) : List Item → Prop where
  | mk {g items h : List Item} (hg : IsGap g) (hc : Condition c items) (hh : IsGap h) :
      Opening c (g ++ items ++ h ++ [token .leftBrace])

/-- What follows `for`, up to the brace. -/
inductive LoopOpening (x c : String) : List Item → Prop where
  | mk {g items h : List Item} (hg : IsGap g) (hc : LoopHeader x c items) (hh : IsGap h) :
      LoopOpening x c (g ++ items ++ h ++ [token .leftBrace])

/-! ### Derivations -/

/-- What items can be derived as, with the tree of the derivation. -/
inductive Form where
  | body (ns : Body)
  | block (n : Node)
  /-- The branches and the alternative of a conditional, after the first branch. -/
  | arms (branches : List Branch) (alternative : Option Body)

/-- The derivations of the grammar. -/
inductive Derives : List Item → Form → Prop where
  | empty : Derives [] (.body [])
  | text (s : String) {items : List Item} {ns : Body} (h : Derives items (.body ns)) :
      Derives (text s :: items) (.body (ns.prependText s))
  | expression (content : String) {items : List Item} {ns : Body}
      (h : Derives items (.body ns)) :
      Derives (expression content :: items) (.body (.expression (Text.trim content) :: ns))
  | block {items rest : List Item} {n : Node} {ns : Body} (hn : Derives items (.block n))
      (h : Derives rest (.body ns)) : Derives (items ++ rest) (.body (n :: ns))
  | loop {opening items : List Item} {x c : String} {ns : Body} (ho : LoopOpening x c opening)
      (h : Derives items (.body ns)) :
      Derives (keyword .forWord :: (opening ++ (items ++ [token .rightBrace])))
        (.block (.loop x c ns))
  | conditional {opening items tail : List Item} {c : String} {ns : Body} {branches : List Branch}
      {alternative : Option Body} (ho : Opening c opening) (h : Derives items (.body ns))
      (ht : Derives tail (.arms branches alternative)) :
      Derives (keyword .ifWord :: (opening ++ (items ++ token .rightBrace :: tail)))
        (.block (.conditional (⟨c, ns⟩ :: branches) alternative))
  | noArm : Derives [] (.arms [] none)
  | elseArm {g h items : List Item} {ns : Body} (hg : IsGap g) (hh : IsGap h)
      (hd : Derives items (.body ns)) :
      Derives (g ++ keyword .elseWord ::
        (h ++ token .leftBrace :: (items ++ [token .rightBrace]))) (.arms [] (some ns))
  | elseIfArm {g h opening items tail : List Item} {c : String} {ns : Body}
      {branches : List Branch} {alternative : Option Body} (hg : IsGap g) (hh : IsGap h)
      (ho : Opening c opening) (hd : Derives items (.body ns))
      (ht : Derives tail (.arms branches alternative)) :
      Derives (g ++ keyword .elseWord ::
        (h ++ keyword .ifWord :: (opening ++ (items ++ token .rightBrace :: tail))))
        (.arms (⟨c, ns⟩ :: branches) alternative)

/-! ### The last step of a derivation -/

theorem derives_body_iff {items : List Item} {ns : Body} :
    Derives items (.body ns) ↔
      (items = [] ∧ ns = []) ∨
      (∃ s rest ms, items = text s :: rest ∧ Derives rest (.body ms) ∧ ns = ms.prependText s) ∨
      (∃ content rest ms, items = expression content :: rest ∧ Derives rest (.body ms) ∧
        ns = .expression (Text.trim content) :: ms) ∨
      ∃ own rest n ms, items = own ++ rest ∧ Derives own (.block n) ∧ Derives rest (.body ms) ∧
        ns = n :: ms := by
  constructor
  · intro h
    cases h with
    | empty => exact .inl ⟨rfl, rfl⟩
    | text s h => exact .inr (.inl ⟨s, _, _, rfl, h, rfl⟩)
    | expression content h => exact .inr (.inr (.inl ⟨content, _, _, rfl, h, rfl⟩))
    | block hn h => exact .inr (.inr (.inr ⟨_, _, _, _, rfl, hn, h, rfl⟩))
  · rintro (⟨rfl, rfl⟩ | ⟨s, rest, ms, rfl, h, rfl⟩ | ⟨content, rest, ms, rfl, h, rfl⟩ |
      ⟨own, rest, n, ms, rfl, hn, h, rfl⟩)
    · exact .empty
    · exact .text s h
    · exact .expression content h
    · exact .block hn h

theorem derives_block_iff {items : List Item} {n : Node} : Derives items (.block n) ↔
    (∃ opening own x c ns, LoopOpening x c opening ∧ Derives own (.body ns) ∧
      items = keyword .forWord :: (opening ++ (own ++ [token .rightBrace])) ∧
      n = .loop x c ns) ∨
    ∃ opening own tail c ns branches alternative, Opening c opening ∧ Derives own (.body ns) ∧
      Derives tail (.arms branches alternative) ∧
      items = keyword .ifWord :: (opening ++ (own ++ token .rightBrace :: tail)) ∧
      n = .conditional (⟨c, ns⟩ :: branches) alternative := by
  constructor
  · intro h
    cases h with
    | loop ho h => exact .inl ⟨_, _, _, _, _, ho, h, rfl, rfl⟩
    | conditional ho h ht => exact .inr ⟨_, _, _, _, _, _, _, ho, h, ht, rfl, rfl⟩
  · rintro (⟨opening, own, x, c, ns, ho, h, rfl, rfl⟩ |
      ⟨opening, own, tail, c, ns, branches, alternative, ho, h, ht, rfl, rfl⟩)
    · exact .loop ho h
    · exact .conditional ho h ht

/-- A block starts with its keyword. -/
theorem Derives.exists_keyword {items : List Item} {n : Node} (h : Derives items (.block n)) :
    ∃ k rest, items = keyword k :: rest ∧ (k = .ifWord ∨ k = .forWord) := by
  cases h with
  | loop => exact ⟨_, _, rfl, .inr rfl⟩
  | conditional => exact ⟨_, _, rfl, .inl rfl⟩

/-- No items are the empty body. -/
theorem derives_nil_iff {ns : Body} : Derives [] (.body ns) ↔ ns = [] := by
  constructor
  · intro h
    rcases derives_body_iff.1 h with ⟨-, rfl⟩ | ⟨_, _, _, hnil, -⟩ | ⟨_, _, _, hnil, -⟩ |
      ⟨_, _, _, _, hnil, hn, -⟩
    · rfl
    · cases hnil
    · cases hnil
    · obtain ⟨k, own, rfl, -⟩ := hn.exists_keyword
      cases hnil
  · rintro rfl
    exact .empty

/-- A text is in front of the body behind it. -/
theorem derives_text_cons_iff {s : String} {items : List Item} {ns : Body} :
    Derives (.text s :: items) (.body ns) ↔
      ∃ ms, Derives items (.body ms) ∧ ns = ms.prependText s := by
  constructor
  · intro h
    rcases derives_body_iff.1 h with ⟨hnil, -⟩ | ⟨_, _, ms, hcons, hms, rfl⟩ |
      ⟨_, _, _, hcons, -⟩ | ⟨_, _, _, _, hcons, hn, -⟩
    · cases hnil
    · obtain ⟨⟨⟩, rfl⟩ := List.cons.inj hcons
      exact ⟨ms, hms, rfl⟩
    · cases hcons
    · obtain ⟨k, own, rfl, -⟩ := hn.exists_keyword
      cases hcons
  · rintro ⟨ms, hms, rfl⟩
    exact .text s hms

theorem Derives.isText_eq_false {items : List Item} {n : Node} (h : Derives items (.block n)) :
    n.isText = false := by
  cases h <;> rfl

/-- The arms of a conditional are none, or they start with `else` behind a gap. -/
theorem Derives.eq_nil_or_else {items : List Item} {branches : List Branch}
    {alternative : Option Body} (h : Derives items (.arms branches alternative)) :
    (items = [] ∧ branches = [] ∧ alternative = none) ∨
      ∃ g rest, IsGap g ∧ items = g ++ keyword .elseWord :: rest := by
  cases h with
  | noArm => exact .inl ⟨rfl, rfl, rfl⟩
  | elseArm hg => exact .inr ⟨_, _, hg, rfl⟩
  | elseIfArm hg => exact .inr ⟨_, _, hg, rfl⟩

/-- Arms that start with `else` are the alternative, or one more branch with the arms after it. -/
theorem derives_arms_else_iff {g rest : List Item} (hg : IsGap g) {branches : List Branch}
    {alternative : Option Body} :
    Derives (g ++ keyword .elseWord :: rest) (.arms branches alternative) ↔
      (∃ h own ns, IsGap h ∧ Derives own (.body ns) ∧
        rest = h ++ token .leftBrace :: (own ++ [token .rightBrace]) ∧
        branches = [] ∧ alternative = some ns) ∨
      ∃ h opening own tail c ns bs, IsGap h ∧ Opening c opening ∧ Derives own (.body ns) ∧
        Derives tail (.arms bs alternative) ∧
        rest = h ++ keyword .ifWord :: (opening ++ (own ++ token .rightBrace :: tail)) ∧
        branches = ⟨c, ns⟩ :: bs := by
  constructor
  · generalize heq : g ++ keyword .elseWord :: rest = items
    intro h
    cases h with
    | noArm => simp at heq
    | elseArm hg' hh hd =>
      obtain ⟨-, -, rfl⟩ := gap_append_inj hg hg' rfl rfl heq
      exact .inl ⟨_, _, _, hh, hd, rfl, rfl, rfl⟩
    | elseIfArm hg' hh ho hd ht =>
      obtain ⟨-, -, rfl⟩ := gap_append_inj hg hg' rfl rfl heq
      exact .inr ⟨_, _, _, _, _, _, _, hh, ho, hd, ht, rfl, rfl⟩
  · rintro (⟨h, own, ns, hh, hd, rfl, rfl, rfl⟩ |
      ⟨h, opening, own, tail, c, ns, bs, hh, ho, hd, ht, rfl, rfl⟩)
    · exact .elseArm hg hh hd
    · exact .elseIfArm hg hh ho hd ht

end Stencil.Grammar
