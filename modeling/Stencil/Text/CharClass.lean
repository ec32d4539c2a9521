/-!
# Classes of characters

A class of characters is a list of ranges of code points, both ends included. Membership looks the
code point up in the ranges one after the other, so a class is as readable as the table that
defines it.

## Main definitions

* `Stencil.Text.CharClass`: a class, as its ranges.
* `Stencil.Text.CharClass.contains`: membership of a character.
* `Stencil.Text.blank`, `Stencil.Text.isBlank`: the class `White_Space`.
-/

namespace Stencil.Text

/-- A class of characters, given by ranges of code points with both ends included. -/
abbrev CharClass := List (Nat × Nat)

namespace CharClass

/-- Whether the code point of `c` lies in one of the ranges. -/
def contains (k : CharClass) (c : Char) : Bool :=
  k.any fun r => decide (r.1 ≤ c.toNat) && decide (c.toNat ≤ r.2)

end CharClass

/-! ### Blank characters -/

/-- The characters of the property `White_Space`. -/
def blank : CharClass :=
  [(0x09, 0x0D), (0x20, 0x20), (0x85, 0x85), (0xA0, 0xA0), (0x1680, 0x1680), (0x2000, 0x200A),
    (0x2028, 0x2029), (0x202F, 0x202F), (0x205F, 0x205F), (0x3000, 0x3000)]

/-- Whether a character separates words. -/
def isBlank (c : Char) : Bool :=
  blank.contains c

end Stencil.Text
