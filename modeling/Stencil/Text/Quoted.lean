import Stencil.Text.Hidden

/-!
# Quoted text

A message shows a text between quotes. A quote or backslash is written after a backslash, the line
and tab characters and the null character by their short names, and every other hidden character
(`Stencil.Text.isHidden`) by its code point in hexadecimal, as `\u{301}`. All else stands as it is,
the apostrophe too.

## Main definitions

* `Stencil.Text.quotedChar`: how one character is written.
* `Stencil.Text.quoted`: a text between quotes.
-/

namespace Stencil.Text

/-- A code point in lower case hexadecimal, without leading zeros. -/
def hexadecimal (n : Nat) : List Char :=
  Nat.toDigits 16 n

/-- How a character is written between quotes. -/
def quotedChar (c : Char) : List Char :=
  if c = '"' then ['\\', '"']
  else if c = '\\' then ['\\', '\\']
  else if c = '\n' then ['\\', 'n']
  else if c = '\r' then ['\\', 'r']
  else if c = '\t' then ['\\', 't']
  else if c = '\x00' then ['\\', '0']
  else if isHidden c then ['\\', 'u', '{'] ++ hexadecimal c.toNat ++ ['}']
  else [c]

/-- A text between quotes. -/
def quoted (s : String) : String :=
  String.ofList ('"' :: s.toList.flatMap quotedChar ++ ['"'])

end Stencil.Text
