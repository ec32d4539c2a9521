import Stencil.Datum

/-!
# Numerals

A numeral is an optional minus sign, digits without needless zeros in front, and optionally a
fraction and an exponent. A numeral without fraction and exponent is an integer if it fits into 64
bits; all others, and negative zero, are floats.

The value of a float is computed from at most 64 bits of significand. Digits are taken into the
significand as long as it stays below `2 ^ 64`. Further digits in front of the point only count for
the exponent, and further digits behind it not at all. The significand is then multiplied with a
power of ten, or divided by one, in the arithmetic of the format. The result need not be the number
nearest to the numeral, but it is the same for every reader of this kind. A result that would be
infinite is none.

## Main definitions

* `Stencil.Json.Numeral`: the parts of a numeral.
* `Stencil.Json.Numeral.datum?`: its number.
* `Stencil.Json.scale?`: a float times a power of ten.
-/

namespace Stencil.Json

open Decimal (Binary64)

/-- The parts of a numeral, with its digits as numbers. -/
structure Numeral where
  negative : Bool
  /-- The digits in front of the point. -/
  whole : List Nat
  /-- The digits behind the point, if there is one. -/
  fraction : Option (List Nat)
  /-- Whether the exponent is negative, and its digits, if there is one. -/
  exponent : Option (Bool × List Nat)
  deriving DecidableEq, Repr

/-- The numbers that fit into 64 bits are below this one. -/
def wordBound : Nat := Nat.pow 2 64

/-- Exponents above this one are not counted. -/
def greatestExponent : Nat := Nat.pow 2 31 - 1

/-- The greatest exponent of a power of ten that is finite. -/
def greatestPower : Nat := 308

/-- The number with the given digits. -/
def ofDigits (digits : List Nat) : Nat :=
  digits.foldl (fun n d => 10 * n + d) 0

/-- A significand with digits put behind it as long as it stays below the bound, and the digits that
are left. -/
def extend (significand : Nat) : List Nat → Nat × List Nat
  | [] => (significand, [])
  | d :: ds =>
    if 10 * significand + d < wordBound then extend (10 * significand + d) ds
    else (significand, d :: ds)

/-- The float `10 ^ n`. -/
def powerOfTen (n : Nat) : Binary64 :=
  .ofRatio false (Nat.pow 10 n) 1

/-- A float times `10 ^ e` for `e ≥ 0`. A result that would be infinite is none. -/
def scaleUp? (x : Binary64) (e : Nat) : Option Binary64 :=
  if greatestPower < e then
    if x.isZero then some x else none
  else
    let y := x.mul (powerOfTen e)
    if y.isInfinite then none else some y

/-- A float divided by `10 ^ e`, in steps of powers of ten that are finite. -/
def scaleDown (x : Binary64) (e : Nat) : Binary64 :=
  if _h : greatestPower < e then
    if x.isZero then x
    else scaleDown (x.div (powerOfTen greatestPower)) (e - greatestPower)
  else x.div (powerOfTen e)
termination_by e
decreasing_by
  have : 0 < greatestPower := by decide
  omega

/-- A float times a power of ten. A result that would be infinite is none. -/
def scale? (x : Binary64) (e : Int) : Option Binary64 :=
  if 0 ≤ e then scaleUp? x e.toNat else some (scaleDown x (-e).toNat)

namespace Numeral

/-- The significand of a numeral, and the power of ten that its last digit counts. -/
def significand (n : Numeral) : Nat × Int :=
  let (s, dropped) := extend 0 n.whole
  let fraction := n.fraction.getD []
  let (s, left) := extend s fraction
  (s, (dropped.length : Int) - (fraction.length - left.length : Nat))

/-- The magnitude of a numeral as a float. -/
def magnitude? (n : Numeral) : Option Binary64 :=
  let (s, last) := n.significand
  let x := Binary64.ofRatio false s 1
  match n.exponent with
  | none => scale? x last
  | some (negative, digits) =>
    let e := ofDigits digits
    if greatestExponent < e then
      if negative ∨ s = 0 then some (.zero false) else none
    else scale? x (if negative then last - e else last + e)

/-- The float that a numeral is. -/
def float? (n : Numeral) : Option Datum :=
  n.magnitude?.map fun x => .double (if n.negative then x.negate else x)

/-- The number that a numeral is. -/
def datum? (n : Numeral) : Option Datum :=
  match n.fraction, n.exponent with
  | none, none =>
    let m := ofDigits n.whole
    if n.negative then
      if 0 < m ∧ m ≤ wordBound / 2 then some (.int (-m)) else n.float?
    else if m < wordBound then some (.nat m)
    else n.float?
  | _, _ => n.float?

end Numeral

end Stencil.Json
