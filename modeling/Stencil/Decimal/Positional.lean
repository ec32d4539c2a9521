import Stencil.Decimal.Shortest

/-!
# Positional decimals

A number is written with the fewest digits that read back and never with an exponent: zeros fill
the places between the digits and the decimal point, and a whole number has no point. A negative
zero keeps its sign.

## Main definitions

* `Stencil.Decimal.positional`: the decimal `d · 10 ^ k` without an exponent.
* `Stencil.Decimal.Binary64.text`: how a number is written.
-/

namespace Stencil.Decimal

/-- The decimal digits of a natural number. -/
def digits (n : Nat) : List Char :=
  Nat.toDigits 10 n

/-- The decimal `d · 10 ^ k` in positional notation. With a negative `k`, the last `-k` places
stand behind the point, and there is at least one place in front of it. -/
def positional (d : Nat) (k : Int) : List Char :=
  if 0 ≤ k then digits d ++ List.replicate k.toNat '0'
  else
    let places := (-k).toNat
    let ds := digits d
    let padded := List.replicate (places + 1 - ds.length) '0' ++ ds
    padded.take (padded.length - places) ++ '.' :: padded.drop (padded.length - places)

/-- A number in positional notation, with the fewest digits that read back. -/
def Binary64.text (x : Binary64) : String :=
  match x.read with
  | .nan => "NaN"
  | .infinite negative => if negative then "-inf" else "inf"
  | .finite negative m q =>
    let shown :=
      if m = 0 then ['0']
      else
        let decimal := shortest m q
        positional decimal.1 decimal.2
    String.ofList (if negative then '-' :: shown else shown)

end Stencil.Decimal
