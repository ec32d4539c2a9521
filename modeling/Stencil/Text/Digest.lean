/-!
# Digests of texts

A digest stands for a text when one only asks whether a text has changed. Equal texts have equal
digests; different texts have different ones unless a rare collision happens.

The digest is the hash SipHash-1-3 with the key zero. The bytes of the text in UTF-8, closed by the
byte `0xFF`, which no text contains, are packed into words of 64 bits. A state of four words takes
up one word after the other, with one round of mixing for each, and the digest is drawn from it
after three more rounds.

## Main definitions

* `Stencil.Text.packed`: bytes as a list of words.
* `Stencil.Text.Mixer`: the state, with `Mixer.round`, `Mixer.absorb` and `Mixer.result`.
* `Stencil.Text.Digest`, `Stencil.Text.digest`.
-/

namespace Stencil.Text

/-- A word that stands for a text. -/
abbrev Digest := UInt64

/-! ### Words -/

/-- The word with the given bytes, the lowest one first. -/
def wordOfBytes (bytes : List UInt8) : UInt64 :=
  bytes.foldr (fun b w => (w <<< 8) ||| b.toUInt64) 0

/-- Bytes as words of eight bytes each. The last word holds the bytes that are left, fewer than
eight, and in its highest byte the given size. -/
def packed (size : UInt8) : List UInt8 → List UInt64
  | a :: b :: c :: d :: e :: f :: g :: h :: rest =>
    wordOfBytes [a, b, c, d, e, f, g, h] :: packed size rest
  | rest => [wordOfBytes rest ||| (size.toUInt64 <<< 56)]

/-- A word whose bits are moved up by a number of places; those that leave it at the top come back
at the bottom. -/
def rotated (w places : UInt64) : UInt64 :=
  (w <<< places) ||| (w >>> (64 - places))

/-! ### Mixing -/

/-- Four words that are mixed with each other. -/
structure Mixer where
  a : UInt64
  b : UInt64
  c : UInt64
  d : UInt64
  deriving DecidableEq, Repr

namespace Mixer

/-- The state before the first word. -/
def start : Mixer :=
  ⟨0x736F6D6570736575, 0x646F72616E646F6D, 0x6C7967656E657261, 0x7465646279746573⟩

/-- One round of mixing: every word is added to a neighbour, rotated and combined with the sum. -/
def round (m : Mixer) : Mixer :=
  let a := m.a + m.b
  let b := rotated m.b 13 ^^^ a
  let c := m.c + m.d
  let d := rotated m.d 16 ^^^ c
  let a := rotated a 32 + d
  let d := rotated d 21 ^^^ a
  let c := c + b
  let b := rotated b 17 ^^^ c
  ⟨a, b, rotated c 32, d⟩

/-- The state after one more word. -/
def absorb (m : Mixer) (w : UInt64) : Mixer :=
  let mixed := round { m with d := m.d ^^^ w }
  { mixed with a := mixed.a ^^^ w }

/-- The digest that a state gives at the end. -/
def result (m : Mixer) : Digest :=
  let mixed := { m with c := m.c ^^^ 0xFF }.round.round.round
  mixed.a ^^^ mixed.b ^^^ mixed.c ^^^ mixed.d

end Mixer

/-! ### Digests -/

/-- The digest of some bytes. -/
def digestBytes (bytes : List UInt8) : Digest :=
  ((packed bytes.length.toUInt8 bytes).foldl Mixer.absorb Mixer.start).result

/-- The digest of a text. -/
def digest (s : String) : Digest :=
  digestBytes (s.toUTF8.data.toList ++ [0xFF])

end Stencil.Text
