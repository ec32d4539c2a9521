import Stencil.Decimal.Binary64

/-!
# The shortest decimal that reads back

A finite positive number `m · 2 ^ q` of the 64 bit format is the nearest one to all reals of an
interval around it; the ends of the interval belong to it when `m` is even, for a half rounds to
the even neighbour. Its shortest decimal is a decimal inside that interval with as few digits as
possible and, of those, the nearest to the number.

The search goes through the number of digits. On the grid of decimals with `n` digits only the two
neighbours of the number need a test, for if some point of the grid lies in the interval, one of
the neighbours does.

## Main definitions

* `Stencil.Decimal.Span`: a number with the interval of reals that round to it.
* `Stencil.Decimal.shortest`: the digits and the decimal exponent.
-/

namespace Stencil.Decimal

/-! ### The interval of a number -/

/-- A positive number and the ends of the interval of reals that round to it, as numerators over
one denominator. -/
structure Span where
  low : Nat
  value : Nat
  high : Nat
  denominator : Nat
  /-- Whether the ends belong to the interval. -/
  closed : Bool
  deriving DecidableEq, Repr

namespace Span

/-- The interval of `m · 2 ^ q`. It reaches half a unit up, and half a unit down except below a
power of two, where the numbers are twice as dense. -/
def ofBinary (m : Nat) (q : Int) : Span :=
  let down := if m = Binary64.leadingBit ∧ Binary64.leastExponent < q then 1 else 2
  let scaled := Binary64.ratio 1 (q - 2)
  { low := (4 * m - down) * scaled.1
    value := 4 * m * scaled.1
    high := (4 * m + 2) * scaled.1
    denominator := scaled.2
    closed := m % 2 == 0 }

/-- Whether the decimal `digits · 10 ^ k` lies in the interval. -/
def holds (s : Span) (digits : Nat) (k : Int) : Bool :=
  let x := digits * Nat.pow 10 k.toNat * s.denominator
  let scale := Nat.pow 10 (-k).toNat
  if s.closed then decide (s.low * scale ≤ x) && decide (x ≤ s.high * scale)
  else decide (s.low * scale < x) && decide (x < s.high * scale)

/-- The greatest `digits` with `digits · 10 ^ k` at most the number. -/
def floorOn (s : Span) (k : Int) : Nat :=
  s.value * Nat.pow 10 (-k).toNat / (s.denominator * Nat.pow 10 k.toNat)

/-- Whether the number is nearer to the grid point `digits · 10 ^ k` below it than to the next one
above. -/
def nearerBelow (s : Span) (digits : Nat) (k : Int) : Bool :=
  decide (2 * s.value * Nat.pow 10 (-k).toNat <
    (2 * digits + 1) * Nat.pow 10 k.toNat * s.denominator)

/-- The decimal point of the number: it is below `10 ^ p` and at least `10 ^ (p - 1)`. All positive
numbers of the format are above `10 ^ (-400)`. -/
def decimalPoint (s : Span) : Int :=
  (Nat.toDigits 10 (s.value * Nat.pow 10 400 / s.denominator)).length - 400

/-- The neighbour of the number on the grid of multiples of `10 ^ k` that lies in its interval. If
both do, the nearer one is taken, and the upper one if they are equally near. -/
def neighbour? (s : Span) (k : Int) : Option (Nat × Int) :=
  let below := s.floorOn k
  match s.holds below k, s.holds (below + 1) k with
  | true, true => some (if s.nearerBelow below k then below else below + 1, k)
  | true, false => some (below, k)
  | false, true => some (below + 1, k)
  | false, false => none

/-- The first grid with a point in the interval, from the grid of multiples of `10 ^ k` on to ten
times finer ones. -/
def search (s : Span) : Nat → Int → Nat × Int
  | 0, k => (s.floorOn k, k)
  | fuel + 1, k => (s.neighbour? k).getD (s.search fuel (k - 1))

end Span

/-- The same decimal without a zero as its last digit. -/
def dropZero (decimal : Nat × Int) : Nat × Int :=
  if decimal.1 % 10 = 0 then (decimal.1 / 10, decimal.2 + 1) else decimal

/-- The digits `d` and the exponent `k` of the shortest decimal `d · 10 ^ k` that reads back as
`m · 2 ^ q`, for positive `m`. Seventeen digits always suffice. The first grid has one digit and,
as the neighbour above nine, the number ten; on finer grids no decimal that is found ends in a zero,
for it would be on the grid before. -/
def shortest (m : Nat) (q : Int) : Nat × Int :=
  let s := Span.ofBinary m q
  dropZero (s.search 17 (s.decimalPoint - 1))

end Stencil.Decimal
