import Stencil.Json.Numeral

/-!
# Symbols of a document

A document is a sequence of symbols with white space between them: braces, brackets, colons, commas,
and the scalars, which are texts between quotes, numerals and three words.

Between quotes stand characters from the space on. A backslash starts an escape: one of eight
characters, or `u` with four hexadecimal digits for a code unit of 16 bits. A code unit of the range
of surrogates must be the first half of a pair with the second half right after it.

## Main definitions

* `Stencil.Json.Symbol`: the symbols.
* `Stencil.Json.quotedUnits?`, `Stencil.Json.joinUnits?`: texts between quotes.
* `Stencil.Json.numeral?`: numerals.
* `Stencil.Json.symbol?`, `Stencil.Json.symbols?`: the first symbol and all symbols of a text.
-/

namespace Stencil.Json

/-- The symbols of a document. -/
inductive Symbol where
  | openList
  | closeList
  | openMap
  | closeMap
  | colon
  | comma
  /-- A text, which may be a key. -/
  | text (s : String)
  /-- Any other scalar. -/
  | scalar (d : Datum)

/-- Whether a character stands between symbols. -/
def isSpace (c : Char) : Bool :=
  c == ' ' || c == '\n' || c == '\r' || c == '\t'

/-! ### Texts -/

/-- A character of a text, or a code unit that an escape spells. -/
inductive TextUnit where
  | char (c : Char)
  | code (n : Nat)
  deriving DecidableEq, Repr

/-- The value of a hexadecimal digit. -/
def hexDigit? (c : Char) : Option Nat :=
  if '0' ≤ c ∧ c ≤ '9' then some (c.toNat - '0'.toNat)
  else if 'a' ≤ c ∧ c ≤ 'f' then some (c.toNat - 'a'.toNat + 10)
  else if 'A' ≤ c ∧ c ≤ 'F' then some (c.toNat - 'A'.toNat + 10)
  else none

/-- The code unit of four hexadecimal digits. -/
def codeUnit? (a b c d : Char) : Option Nat := do
  let a ← hexDigit? a
  let b ← hexDigit? b
  let c ← hexDigit? c
  let d ← hexDigit? d
  return ((a * 16 + b) * 16 + c) * 16 + d

/-- The character that an escape of one character spells. -/
def escaped? (c : Char) : Option Char :=
  if c = '"' ∨ c = '\\' ∨ c = '/' then some c
  else if c = 'b' then some '\x08'
  else if c = 'f' then some '\x0c'
  else if c = 'n' then some '\n'
  else if c = 'r' then some '\r'
  else if c = 't' then some '\t'
  else none

/-- The units of a text up to its closing quote, and what follows the quote. -/
def quotedUnits? : List Char → Option (List TextUnit × List Char)
  | [] => none
  | '"' :: r => some ([], r)
  | '\\' :: 'u' :: a :: b :: c :: d :: r => do
    let n ← codeUnit? a b c d
    let (units, rest) ← quotedUnits? r
    return (.code n :: units, rest)
  | '\\' :: e :: r => do
    let c ← escaped? e
    let (units, rest) ← quotedUnits? r
    return (.char c :: units, rest)
  | c :: r =>
    if c.toNat < 0x20 then none
    else do
      let (units, rest) ← quotedUnits? r
      return (.char c :: units, rest)

/-- Whether a code unit is the first half of a pair of surrogates. -/
def isHighSurrogate (n : Nat) : Bool := decide (0xD800 ≤ n) && decide (n < 0xDC00)

/-- Whether a code unit is the second half of a pair of surrogates. -/
def isLowSurrogate (n : Nat) : Bool := decide (0xDC00 ≤ n) && decide (n < 0xE000)

/-- The characters that units spell; a half of a pair of surrogates alone spells none. -/
def joinUnits? : List TextUnit → Option (List Char)
  | [] => some []
  | .char c :: units => (joinUnits? units).map (c :: ·)
  | .code n :: .code m :: units =>
    if isHighSurrogate n then
      if isLowSurrogate m then
        (joinUnits? units).map
          (Char.ofNat (0x10000 + (n - 0xD800) * 0x400 + (m - 0xDC00)) :: ·)
      else none
    else if isLowSurrogate n then none
    else (joinUnits? (.code m :: units)).map (Char.ofNat n :: ·)
  | .code n :: units =>
    if isHighSurrogate n || isLowSurrogate n then none
    else (joinUnits? units).map (Char.ofNat n :: ·)

/-- The text up to its closing quote, and what follows the quote. -/
def quoted? (cs : List Char) : Option (String × List Char) := do
  let (units, rest) ← quotedUnits? cs
  let text ← joinUnits? units
  return (String.ofList text, rest)

/-! ### Numerals -/

/-- The digits at the beginning of a text, and what follows them. -/
def digits (cs : List Char) : List Nat × List Char :=
  ((cs.takeWhile Char.isDigit).map fun c => c.toNat - '0'.toNat, cs.dropWhile Char.isDigit)

/-- The digits at the beginning of a text, at least one, and what follows them. -/
def digits? (cs : List Char) : Option (List Nat × List Char) :=
  match digits cs with
  | ([], _) => none
  | p => some p

/-- The digits in front of the point: a zero alone, or digits that start with no zero. -/
def whole? (cs : List Char) : Option (List Nat × List Char) :=
  match digits? cs with
  | some (0 :: _ :: _, _) => none
  | p => p

/-- The fraction at the beginning of a text. -/
def fraction? : List Char → Option (Option (List Nat) × List Char)
  | '.' :: r => (digits? r).map fun p => (some p.1, p.2)
  | cs => some (none, cs)

/-- The sign of an exponent, and what follows it. -/
def exponentSign : List Char → Bool × List Char
  | '-' :: r => (true, r)
  | '+' :: r => (false, r)
  | cs => (false, cs)

/-- The exponent at the beginning of a text. -/
def exponent? : List Char → Option (Option (Bool × List Nat) × List Char)
  | [] => some (none, [])
  | c :: r =>
    if c = 'e' ∨ c = 'E' then
      let (negative, r) := exponentSign r
      (digits? r).map fun p => (some (negative, p.1), p.2)
    else some (none, c :: r)

/-- A numeral without its sign, and what follows it. -/
def unsigned? (negative : Bool) (cs : List Char) : Option (Numeral × List Char) := do
  let (whole, cs) ← whole? cs
  let (fraction, cs) ← fraction? cs
  let (exponent, cs) ← exponent? cs
  return (⟨negative, whole, fraction, exponent⟩, cs)

/-- A numeral at the beginning of a text, and what follows it. -/
def numeral? : List Char → Option (Numeral × List Char)
  | '-' :: r => unsigned? true r
  | cs => unsigned? false cs

/-! ### All symbols -/

/-- What follows a word at the beginning of a text. -/
def afterWord? : List Char → List Char → Option (List Char)
  | [], cs => some cs
  | _ :: _, [] => none
  | w :: ws, c :: cs => if w = c then afterWord? ws cs else none

/-- The symbol of a single character. -/
def punctuation? (c : Char) : Option Symbol :=
  if c = '[' then some .openList
  else if c = ']' then some .closeList
  else if c = '{' then some .openMap
  else if c = '}' then some .closeMap
  else if c = ':' then some .colon
  else if c = ',' then some .comma
  else none

/-- The symbol at the beginning of a text that starts with the given character, and what follows
it. -/
def symbol? (c : Char) (r : List Char) : Option (Symbol × List Char) :=
  match punctuation? c with
  | some s => some (s, r)
  | none =>
    if c = '"' then (quoted? r).map fun p => (.text p.1, p.2)
    else if c = 'n' then (afterWord? ['u', 'l', 'l'] r).map fun r => (.scalar .unit, r)
    else if c = 't' then (afterWord? ['r', 'u', 'e'] r).map fun r => (.scalar (.bool true), r)
    else if c = 'f' then
      (afterWord? ['a', 'l', 's', 'e'] r).map fun r => (.scalar (.bool false), r)
    else do
      let (n, r) ← numeral? (c :: r)
      let d ← n.datum?
      return (.scalar d, r)

/-- All symbols of a text. Every symbol takes at least one character, so a text of `fuel` characters
is read to its end. -/
def symbolsFrom? : Nat → List Char → Option (List Symbol)
  | _, [] => some []
  | 0, _ :: _ => none
  | fuel + 1, c :: r =>
    if isSpace c then symbolsFrom? fuel r
    else do
      let (s, rest) ← symbol? c r
      let symbols ← symbolsFrom? fuel rest
      return s :: symbols

/-- All symbols of a text. -/
def symbols? (cs : List Char) : Option (List Symbol) :=
  symbolsFrom? cs.length cs

end Stencil.Json
