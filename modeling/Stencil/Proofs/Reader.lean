import Stencil.Proofs.Fallible
import Stencil.Proofs.Gap
import Stencil.Event.Reader

/-!
# Readers behind items

Whatever came before, an item that is not blank determines what kind of reader there is behind it:
behind `{`, texts and expressions it stands between statements, behind `}` it waits for `else`, and
behind every other token it is inside a header. Blank texts do not change the kind. The faults of a
reader are few, whatever kind it is of.

## Main definitions

* `Stencil.Reader.IsBehind`: the readers that may stand behind an item and blank texts.
* `Stencil.StatementFault.IsOfItem`: the faults of a reader at an item.

## Main results

* `Stencil.Reader.isBehind_of_step`, `Stencil.Reader.isBehind_of_step_of_isBlank`: what one step of
  reading says about the reader behind it.
* `Stencil.Reader.exists_eq_condition_of_step`, `Stencil.Reader.eq_loopVariable_of_step`: the
  headers behind `if` and `for`.
* `Stencil.Reader.failsOnly_step`: the faults of one step of reading.
-/

namespace Stencil

namespace Header

/-! ### Tokens inside a header -/

/-- A header goes on with every token but a brace. -/
theorem ne_brace_of_step_eq_inl {h h' : Header} {t : Token} (hs : h.step t = .ok (.inl h')) :
    t ≠ .leftBrace ∧ t ≠ .rightBrace := by
  unfold step at hs
  split at hs
  all_goals cases hs
  all_goals simp

/-- A header is completed by the opening brace. -/
theorem eq_leftBrace_of_step_eq_inr {h : Header} {t : Token} {e : Event}
    (hs : h.step t = .ok (.inr e)) : t = .leftBrace := by
  unfold step at hs
  split at hs
  all_goals cases hs
  all_goals rfl

end Header

namespace Reader

open Item

/-! ### Kinds of readers -/

/-- The readers that may stand behind an item and blank texts. A brace ends a header or a block, and
every other token is inside a header. -/
def IsBehind : Option Item → Reader → Prop
  | some (token .leftBrace), r => r = content
  | some (token .rightBrace), r => ∃ blanks, r = closed blanks
  | some (token _), r => ∃ h, r = header h
  | _, r => r = content

theorem isBehind_token_iff {t : Token} (hl : t ≠ .leftBrace) (hr : t ≠ .rightBrace) {r : Reader} :
    r.IsBehind (some (token t)) ↔ ∃ h, r = header h := by
  cases t with
  | leftBrace => exact absurd rfl hl
  | rightBrace => exact absurd rfl hr
  | _ => exact Iff.rfl

/-! ### The reader behind an item -/

theorem isBehind_of_between {i : Item} {r : Reader} {es : List Event}
    (h : between i = .ok (r, es)) : r.IsBehind (some i) := by
  cases i with
  | text s => cases h; rfl
  | expression content => cases h; rfl
  | token t =>
    cases t with
    | keyword k =>
      cases k with
      | ifWord => cases h; exact ⟨_, rfl⟩
      | forWord => cases h; exact ⟨_, rfl⟩
      | _ => cases h
    | rightBrace => cases h; exact ⟨_, rfl⟩
    | _ => cases h

theorem isBehind_of_within {h : Header} {i : Item} {r : Reader} {es : List Event}
    (hi : i.isBlank = false) (hs : within h i = .ok (r, es)) : r.IsBehind (some i) := by
  cases i with
  | text s =>
    rw [isBlank_text] at hi
    simp [within, hi] at hs
  | expression content => cases hs
  | token t =>
    cases hstep : h.step t with
    | error e => simp [within, hstep, Except.map] at hs
    | ok next =>
      cases next with
      | inl h' =>
        obtain ⟨hl, hr⟩ := Header.ne_brace_of_step_eq_inl hstep
        obtain ⟨rfl, -⟩ : header h' = r ∧ [] = es := by simpa [within, hstep, Except.map] using hs
        exact (isBehind_token_iff hl hr).2 ⟨h', rfl⟩
      | inr e =>
        obtain rfl := Header.eq_leftBrace_of_step_eq_inr hstep
        obtain ⟨rfl, -⟩ : content = r ∧ [e] = es := by simpa [within, hstep, Except.map] using hs
        rfl

/-- Behind an item that is not blank stands a reader of the kind that the item determines. -/
theorem isBehind_of_step {r r' : Reader} {i : Item} {es : List Event} (hi : i.isBlank = false)
    (h : r.step i = .ok (r', es)) : r'.IsBehind (some i) := by
  cases r with
  | content => exact isBehind_of_between h
  | header h' => exact isBehind_of_within hi h
  | closed blanks =>
    rw [step] at h
    unfold after at h
    split at h
    · cases h
      exact ⟨_, rfl⟩
    · rename_i s
      rw [if_neg (by simpa [isBlank_text] using hi)] at h
      cases h
      rfl
    · cases hb : between i with
      | error e => rw [hb] at h; cases h
      | ok p =>
        rw [hb] at h
        cases h
        exact isBehind_of_between hb

/-- A blank text leaves the reader of the same kind. -/
theorem isBehind_of_step_of_isBlank {before : Option Item} {r r' : Reader} {i : Item}
    {es : List Event} (hi : i.isBlank = true) (hb : r.IsBehind before)
    (h : r.step i = .ok (r', es)) : r'.IsBehind before := by
  cases i with
  | expression content => cases hi
  | token t => cases hi
  | text s =>
    rw [isBlank_text] at hi
    cases r with
    | content => cases h; exact hb
    | header h' =>
      rw [step, within, if_pos hi] at h
      cases h
      exact hb
    | closed blanks =>
      rw [step, after, if_pos hi] at h
      cases h
      unfold IsBehind at hb ⊢
      split at hb
      · cases hb
      · exact ⟨_, rfl⟩
      · obtain ⟨h', hr⟩ := hb
        cases hr
      · cases hb

/-! ### The reader behind a keyword -/

/-- Behind `if` stands the header of a condition, whether of a first or of a further branch. -/
theorem exists_eq_condition_of_step {r r' : Reader} {es : List Event}
    (h : r.step (keyword .ifWord) = .ok (r', es)) : ∃ arm, r' = header (.condition arm) := by
  cases r with
  | content => cases h; exact ⟨.first, rfl⟩
  | closed blanks => cases h; exact ⟨.first, rfl⟩
  | header h' =>
    cases h' with
    | alternative => cases h; exact ⟨.further, rfl⟩
    | loopCollection parens x => cases parens <;> cases h
    | _ => cases h

/-- Behind `for` stands the header of a loop. -/
theorem eq_loopVariable_of_step {r r' : Reader} {es : List Event}
    (h : r.step (keyword .forWord) = .ok (r', es)) : r' = header .loopVariable := by
  cases r with
  | content => cases h; rfl
  | closed blanks => cases h; rfl
  | header h' =>
    cases h' with
    | loopCollection parens x => cases parens <;> cases h
    | _ => cases h

end Reader

/-! ### Faults of a reader -/

/-- An item is not what has to come next, or it is a token that cannot stand here. -/
def StatementFault.IsOfItem : StatementFault → Prop
  | expected _ found => found ≠ .endOfTemplate
  | unexpected _ => True
  | unexpectedAfterElse _ => True
  | strayElse => True
  | _ => False

theorem Header.failsOnly_step (h : Header) (t : Token) :
    FailsOnly StatementFault.IsOfItem (h.step t) := by
  intro cause hs
  unfold step at hs
  split at hs
  all_goals cases hs
  · trivial
  · rintro ⟨⟩

namespace Reader

theorem failsOnly_between (i : Item) : FailsOnly StatementFault.IsOfItem (between i) := by
  intro cause h
  cases i with
  | token t =>
    cases t with
    | keyword k => cases k <;> cases h <;> trivial
    | _ => cases h <;> trivial
  | _ => cases h

theorem failsOnly_within (h : Header) (i : Item) :
    FailsOnly StatementFault.IsOfItem (within h i) := by
  cases i with
  | text s =>
    by_cases hs : Text.isBlankText s = true
    · rw [within, if_pos hs]
      exact .ok _
    · rw [within, if_neg hs]
      exact .error (by rintro ⟨⟩)
  | expression content => exact .error (by rintro ⟨⟩)
  | token t => exact (h.failsOnly_step t).map _

theorem failsOnly_step (r : Reader) (i : Item) : FailsOnly StatementFault.IsOfItem (r.step i) := by
  cases r with
  | content => exact failsOnly_between i
  | header h => exact failsOnly_within h i
  | closed blanks =>
    rw [step]
    unfold after
    split
    · exact .ok _
    · split
      · exact .ok _
      · exact .ok _
    · exact (failsOnly_between i).map _

end Reader

end Stencil
