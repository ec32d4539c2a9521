import Stencil.Text.Brace
import Stencil.Text.CharClass

/-!
# Tokens of a statement

The code between `<%` and `%>` is a sequence of words, parentheses and braces with blanks between
them. A word is a run of characters that are neither blank nor parentheses or braces; four words are
keywords, and every other one is an identifier, the dots of a path included. Reading code into
tokens never fails.

## Main definitions

* `Stencil.Token`, `Stencil.Keyword`: the tokens.
* `Stencil.Token.ofChars`, `Stencil.Token.ofCode`: the tokens of a text of code.
* `Stencil.Token.describe`: how a message names a token.
* `Stencil.Token.written`: the text that a token is written with.
* `Stencil.Token.isWordChar`: the characters of words.

## Main results

* `Stencil.Token.ofChars_blank`, `Stencil.Token.ofChars_punctuation`, `Stencil.Token.ofChars_word`:
  the first step of reading code.
-/

namespace Stencil

/-- The words with a meaning of their own. -/
inductive Keyword where
  | ifWord
  | elseWord
  | forWord
  | inWord
  deriving DecidableEq, Repr

/-- The word of a keyword. -/
def Keyword.word : Keyword → String
  | ifWord => "if"
  | elseWord => "else"
  | forWord => "for"
  | inWord => "in"

/-- The keyword that a word is, if it is one. -/
def Keyword.ofWord? (w : String) : Option Keyword :=
  if w = "if" then some ifWord
  else if w = "else" then some elseWord
  else if w = "for" then some forWord
  else if w = "in" then some inWord
  else none

theorem Keyword.ofWord?_eq_some_iff {w : String} {k : Keyword} :
    ofWord? w = some k ↔ w = k.word := by
  constructor
  · unfold ofWord?
    intro h
    repeat' split at h
    all_goals cases h
    all_goals assumption
  · rintro rfl
    cases k <;> decide

/-- A token of code. -/
inductive Token where
  | keyword (k : Keyword)
  /-- A word that is no keyword; a path with dots is one identifier. -/
  | identifier (name : String)
  | leftParen
  | rightParen
  | leftBrace
  | rightBrace
  deriving DecidableEq, Repr

namespace Token

/-! ### Reading -/

/-- The parenthesis or brace that a character is, if it is one. -/
def ofPunctuation? (c : Char) : Option Token :=
  if c = '(' then some leftParen
  else if c = ')' then some rightParen
  else if c = '{' then some leftBrace
  else if c = '}' then some rightBrace
  else none

/-- Whether a character is part of a word. -/
def isWordChar (c : Char) : Bool :=
  !Text.isBlank c && (ofPunctuation? c).isNone

/-- The token of a word. -/
def ofWord (w : String) : Token :=
  match Keyword.ofWord? w with
  | some k => keyword k
  | none => identifier w

/-- The tokens of a text of code. -/
def ofChars : List Char → List Token
  | [] => []
  | c :: r =>
    if Text.isBlank c then ofChars r
    else match ofPunctuation? c with
      | some t => t :: ofChars r
      | none =>
        ofWord (String.ofList (c :: r.takeWhile isWordChar)) :: ofChars (r.dropWhile isWordChar)
termination_by s => s.length
decreasing_by
  · simp
  · simp
  · have := (List.dropWhile_sublist isWordChar (l := r)).length_le
    simp only [List.length_cons]
    omega

/-- The tokens of a text of code. -/
def ofCode (code : String) : List Token :=
  ofChars code.toList

/-! ### Writing -/

/-- The text that a token is written with. -/
def written : Token → String
  | keyword k => k.word
  | identifier name => name
  | leftParen => "("
  | rightParen => ")"
  | leftBrace => openBrace
  | rightBrace => closeBrace

/-- How a message names a token. -/
def describe : Token → String
  | keyword k => "keyword `" ++ k.word ++ "`"
  | identifier name => "identifier `" ++ name ++ "`"
  | leftParen => "`(`"
  | rightParen => "`)`"
  | leftBrace => "`" ++ openBrace ++ "`"
  | rightBrace => "`" ++ closeBrace ++ "`"

/-! ### The steps of reading -/

@[simp] theorem ofChars_nil : ofChars [] = [] := by rw [ofChars]

/-- A blank separates tokens and is none. -/
theorem ofChars_blank {c : Char} (h : Text.isBlank c = true) (r : List Char) :
    ofChars (c :: r) = ofChars r := by
  rw [ofChars, if_pos h]

/-- A parenthesis or brace is a token by itself. -/
theorem ofChars_punctuation {c : Char} {t : Token} (hb : Text.isBlank c = false)
    (h : ofPunctuation? c = some t) (r : List Char) : ofChars (c :: r) = t :: ofChars r := by
  rw [ofChars, if_neg (by simp [hb]), h]

/-- A word reaches up to the next character that is no word character. -/
theorem ofChars_word {c : Char} (h : isWordChar c = true) (r : List Char) :
    ofChars (c :: r) = ofWord (String.ofList (c :: r.takeWhile isWordChar)) ::
      ofChars (r.dropWhile isWordChar) := by
  simp only [isWordChar, Bool.and_eq_true, Bool.not_eq_true', Option.isNone_iff_eq_none] at h
  rw [ofChars, if_neg (by simp [h.1]), h.2]

end Token

end Stencil
