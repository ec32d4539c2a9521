import Stencil.Item
import Stencil.Proofs.Text.Mark
import Stencil.Proofs.Token.Spacing

/-!
# Names and the code they are written in

A name is a word that can stand in a code tag and is read there as an identifier: it holds no blank,
parenthesis or brace, does not close the tag, and is no keyword. The identifiers in the items of a
source are names. In the other direction, tokens are written down with a blank around each of them
(`Stencil.Token.spell`), and as long as the identifiers are names they are read back.

## Main definitions

* `Stencil.Token.IsName`: the words that are names.
* `Stencil.Token.IsProper`, `Stencil.Item.IsProper`: tokens and items that a source can have.
* `Stencil.Token.spell`: code with the given tokens.

## Main results

* `Stencil.Token.ofCode_spell`: the tokens that were written are read.
* `Stencil.Token.isProper_of_mem_ofCode`: the identifiers that are read are names.
-/

namespace Stencil.Token

/-! ### Words and names -/

/-- A word that is read as an identifier wherever it stands in a code tag. -/
structure IsName (w : String) : Prop where
  ne_empty : w ≠ ""
  isBlank_eq_false : ∀ c ∈ w.toList, Text.isBlank c = false
  not_punctuation : ∀ c ∈ w.toList, c ∉ ['(', ')', '{', '}']
  not_close : ¬ ['%', '>'] <:+: w.toList
  ne_keyword : ∀ k : Keyword, w ≠ k.word

/-- A name is an identifier that does not close a tag. -/
theorem isName_iff_isIdentifier {w : String} :
    IsName w ↔ IsIdentifier w ∧ ¬ ['%', '>'] <:+: w.toList := by
  constructor
  · intro h
    exact ⟨⟨h.ne_empty, h.isBlank_eq_false, h.not_punctuation, h.ne_keyword⟩, h.not_close⟩
  · rintro ⟨h, hclose⟩
    exact ⟨h.ne_empty, h.isBlank_eq_false, h.not_punctuation, hclose, h.ne_keyword⟩

theorem IsName.isIdentifier {w : String} (h : IsName w) : IsIdentifier w :=
  (isName_iff_isIdentifier.1 h).1

/-- Names can be told by the characters of a word and a look at the keywords. -/
theorem isName_iff {w : String} : IsName w ↔ w ≠ "" ∧ w.toList.all isWordChar = true ∧
    (Text.cut? '%' '>' w.toList).isNone = true ∧ (Keyword.ofWord? w).isNone = true := by
  rw [List.all_eq_true, Option.isNone_iff_eq_none, Option.isNone_iff_eq_none,
    Text.cut?_eq_none_iff]
  constructor
  · intro h
    refine ⟨h.ne_empty, fun c => h.isIdentifier.isWordChar, h.not_close, ?_⟩
    exact Option.eq_none_iff_forall_ne_some.2 fun k hk =>
      h.ne_keyword k (Keyword.ofWord?_eq_some_iff.1 hk)
  · rintro ⟨hne, hchars, hclose, hword⟩
    refine ⟨hne, fun c hc => (isWordChar_iff.1 (hchars c hc)).1,
      fun c hc => (isWordChar_iff.1 (hchars c hc)).2, hclose, fun k hk => ?_⟩
    rw [Keyword.ofWord?_eq_some_iff.2 hk] at hword
    cases hword

instance (w : String) : Decidable (IsName w) :=
  decidable_of_iff _ isName_iff.symm

/-- A token that can be read from a code tag. -/
def IsProper : Token → Prop
  | identifier w => IsName w
  | _ => True

theorem IsProper.isReadable {t : Token} (h : t.IsProper) : t.IsReadable := by
  cases t with
  | identifier w => exact IsName.isIdentifier h
  | _ => trivial

/-- A token that does not close a tag is proper. -/
theorem IsReadable.isProper {t : Token} (h : t.IsReadable)
    (hclose : ¬ ['%', '>'] <:+: t.written.toList) : t.IsProper := by
  cases t with
  | identifier w => exact isName_iff_isIdentifier.2 ⟨h, hclose⟩
  | _ => trivial

/-! ### The tokens of code are proper -/

theorem isProper_of_mem_ofChars {s : List Char} (h : ¬ ['%', '>'] <:+: s) :
    ∀ t ∈ ofChars s, t.IsProper := by
  induction s using token_induction with
  | nil => simp
  | blank c r hc ih =>
    rw [ofChars_blank hc]
    exact ih fun hr => h (List.infix_cons hr)
  | token t r ht hr ih =>
    rw [ofChars_written_append ht hr]
    refine List.forall_mem_cons.2 ⟨ht.isProper fun hi => ?_, ih fun hi => ?_⟩
    · exact h (List.infix_append_of_infix_left hi)
    · exact h (List.infix_append_of_infix_right hi)

/-- The tokens of a tag are proper. -/
theorem isProper_of_mem_ofCode {code : String} (h : ¬ ['%', '>'] <:+: code.toList) :
    ∀ t ∈ ofCode code, t.IsProper :=
  isProper_of_mem_ofChars h

/-! ### Writing tokens down -/

/-- Code with the given tokens, with a blank around each of them. -/
def spell (ts : List Token) : String :=
  " " ++ String.join (ts.map fun t => t.written ++ " ")

theorem toList_spell (ts : List Token) :
    (spell ts).toList = ' ' :: ts.flatMap fun t => t.written.toList ++ [' '] := by
  rw [spell, String.toList_append, String.toList_join]
  simp [List.flatMap_def, Function.comp_def]

/-- Proper tokens are read from the code that spells them. -/
theorem ofCode_spell {ts : List Token} (h : ∀ t ∈ ts, t.IsProper) : ofCode (spell ts) = ts := by
  have hblank : Text.isBlank ' ' = true := by decide
  rw [ofCode, toList_spell, ofChars_blank hblank]
  induction ts with
  | nil => exact ofChars_nil
  | cons t ts ih =>
    obtain ⟨ht, hts⟩ := List.forall_mem_cons.1 h
    have hstop : ∀ r, t.isWord = true → ∀ c ∈ (' ' :: r).head?, isWordChar c = false := by
      rintro r - c ⟨⟩
      exact isWordChar_of_isBlank hblank
    rw [List.flatMap_cons, List.append_assoc, List.singleton_append,
      ofChars_written_append ht.isReadable (hstop _), ofChars_blank hblank, ih hts]

/-- A proper token does not close a tag. -/
theorem IsProper.not_close {t : Token} (h : t.IsProper) : ¬ ['%', '>'] <:+: t.written.toList := by
  cases t with
  | identifier w => exact IsName.not_close h
  | keyword k => cases k <;> decide
  | _ => decide

/-- Code that spells proper tokens does not close its tag. -/
theorem not_close_spell {ts : List Token} (h : ∀ t ∈ ts, t.IsProper) :
    ¬ ['%', '>'] <:+: (spell ts).toList := by
  rw [toList_spell, Text.mark_infix_cons_iff (by decide)]
  induction ts with
  | nil => decide
  | cons t ts ih =>
    obtain ⟨ht, hts⟩ := List.forall_mem_cons.1 h
    rw [List.flatMap_cons, List.append_assoc, List.singleton_append,
      Text.mark_infix_append_cons_iff (by decide) (by decide), not_or]
    exact ⟨ht.not_close, ih hts⟩

end Stencil.Token
