/-!
# Numbers in 64 bits

A number of this format is a word of 64 bits: a sign, 11 bits of exponent and 52 bits of fraction.
Nothing here computes with machine floating point. A finite number is read as `m · 2 ^ q` with
natural `m`, a positive ratio of natural numbers is rounded to the format in exact arithmetic, a
half going to the even neighbour, and products and quotients are the rounded exact ones.

## Main definitions

* `Stencil.Decimal.Binary64`: a number, as its bits.
* `Stencil.Decimal.Binary64.Reading`, `Stencil.Decimal.Binary64.read`: what the bits mean.
* `Stencil.Decimal.Binary64.ofRatio`: the nearest number to a ratio.
* `Stencil.Decimal.Binary64.mul`, `Stencil.Decimal.Binary64.div`: rounded products and quotients of
  magnitudes.
* `Stencil.Decimal.Binary64.ofBinary32`: a number of the 32 bit format, which is exact here.
-/

namespace Stencil.Decimal

/-- A number of the 64 bit format. Two of them are equal when their bits are. -/
structure Binary64 where
  bits : UInt64
  deriving DecidableEq, Repr, Inhabited

namespace Binary64

/-! ### Reading -/

/-- What a number of the format stands for. -/
inductive Reading where
  /-- No number. -/
  | nan
  /-- Beyond all finite numbers, on one side. -/
  | infinite (negative : Bool)
  /-- The number `mantissa · 2 ^ exponent` with a sign, which zero has too. -/
  | finite (negative : Bool) (mantissa : Nat) (exponent : Int)
  deriving DecidableEq, Repr

/-- The least exponent of a finite number: subnormal numbers are multiples of `2 ^ (-1074)`. -/
def leastExponent : Int := -1074

/-- The fraction of normal numbers has an implicit leading bit of this weight. -/
def leadingBit : Nat := Nat.pow 2 52

/-- The sign bit. -/
def isNegative (x : Binary64) : Bool :=
  decide (Nat.pow 2 63 ≤ x.bits.toNat)

/-- The 63 bits after the sign; among the finite numbers of one sign, their order is the order of
magnitudes. -/
def magnitude (x : Binary64) : Nat :=
  x.bits.toNat % Nat.pow 2 63

/-- What the bits stand for. -/
def read (x : Binary64) : Reading :=
  let exponentField := x.magnitude / leadingBit
  let fraction := x.magnitude % leadingBit
  if exponentField = 2047 then
    if fraction = 0 then .infinite x.isNegative else .nan
  else if exponentField = 0 then
    .finite x.isNegative fraction leastExponent
  else
    .finite x.isNegative (leadingBit + fraction) (leastExponent + (exponentField - 1 : Nat))

/-! ### Rounding -/

/-- The number with the given sign and magnitude bits. -/
def ofMagnitude (negative : Bool) (n : Nat) : Binary64 :=
  ⟨UInt64.ofNat (if negative then Nat.pow 2 63 + n else n)⟩

/-- The magnitude bits of infinity. -/
def infiniteMagnitude : Nat := 2047 * leadingBit

/-- The number beyond all finite ones, on one side. -/
def infinity (negative : Bool) : Binary64 :=
  ofMagnitude negative infiniteMagnitude

/-- The bits that stand for no number. -/
def nan : Binary64 :=
  ofMagnitude false (infiniteMagnitude + leadingBit / 2)

/-- Zero with a sign. -/
def zero (negative : Bool) : Binary64 :=
  ofMagnitude negative 0

/-- The integer nearest to `num / den`, a half going to the even one. -/
def roundHalfEven (num den : Nat) : Nat :=
  let q := num / den
  let r := num % den
  if 2 * r < den then q
  else if den < 2 * r then q + 1
  else if q % 2 = 0 then q else q + 1

/-- The ratio `num / den` times `2 ^ e`, as a ratio. -/
def scaleRatio (num den : Nat) (e : Int) : Nat × Nat :=
  if 0 ≤ e then (num * Nat.pow 2 e.toNat, den) else (num, den * Nat.pow 2 (-e).toNat)

/-- The exponent `a` with `2 ^ a ≤ num / den < 2 ^ (a + 1)`, for positive `num` and `den`. -/
def binaryExponent (num den : Nat) : Int :=
  let a : Int := (num.log2 : Int) - den.log2
  let scaled := scaleRatio num den (-a)
  if scaled.2 ≤ scaled.1 then a else a - 1

/-- The magnitude bits of the number nearest to `num / den`, at most those of infinity. The result
has as many bits after the leading one as its exponent leaves room for; a carry out of the fraction
is a carry into the exponent, so the two fields are simply added. -/
def ratioMagnitude (num den : Nat) : Nat :=
  if num = 0 then 0
  else
    let exponent := max (binaryExponent num den - 52) leastExponent
    let scaled := scaleRatio num den (-exponent)
    let rounded := roundHalfEven scaled.1 scaled.2
    min ((exponent - leastExponent).toNat * leadingBit + rounded) infiniteMagnitude

/-- The number nearest to `num / den` with a sign, a half going to the even neighbour. -/
def ofRatio (negative : Bool) (num den : Nat) : Binary64 :=
  ofMagnitude negative (ratioMagnitude num den)

/-- The magnitude of a finite number as a ratio. -/
def ratio (mantissa : Nat) (exponent : Int) : Nat × Nat :=
  scaleRatio mantissa 1 exponent

/-- Whether a number is beyond all finite numbers. -/
def isInfinite (x : Binary64) : Bool :=
  match x.read with
  | .infinite _ => true
  | _ => false

/-- Whether a number is zero, with either sign. -/
def isZero (x : Binary64) : Bool :=
  x.magnitude == 0

/-- The magnitude of a finite number as a ratio; other numbers count as zero. -/
def toRatio (x : Binary64) : Nat × Nat :=
  match x.read with
  | .finite _ m q => ratio m q
  | _ => (0, 1)

/-- The rounded product of two finite magnitudes. -/
def mul (x y : Binary64) : Binary64 :=
  let a := x.toRatio
  let b := y.toRatio
  ofRatio false (a.1 * b.1) (a.2 * b.2)

/-- The rounded quotient of two finite magnitudes, the second not zero. -/
def div (x y : Binary64) : Binary64 :=
  let a := x.toRatio
  let b := y.toRatio
  ofRatio false (a.1 * b.2) (a.2 * b.1)

/-- The number with the other sign. -/
def negate (x : Binary64) : Binary64 :=
  ofMagnitude (!x.isNegative) x.magnitude

/-! ### The 32 bit format -/

/-- The number that a word of the 32 bit format stands for: a sign, 8 bits of exponent and 23 bits
of fraction. Every such number is one of the 64 bit format. -/
def ofBinary32 (word : UInt32) : Binary64 :=
  let negative := decide (Nat.pow 2 31 ≤ word.toNat)
  let exponentField := word.toNat / Nat.pow 2 23 % Nat.pow 2 8
  let fraction := word.toNat % Nat.pow 2 23
  if exponentField = 255 then
    if fraction = 0 then infinity negative else nan
  else if exponentField = 0 then
    ofRatio negative fraction (Nat.pow 2 149)
  else
    let scaled := ratio (Nat.pow 2 23 + fraction) (Int.ofNat exponentField - 150)
    ofRatio negative scaled.1 scaled.2

end Binary64

end Stencil.Decimal
