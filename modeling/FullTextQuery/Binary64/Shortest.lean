import FullTextQuery.Binary64.Basic
import FullTextQuery.Decimal.Scientific

namespace FullTextQuery.Binary64

/-!
# Decimals of binary64 numbers

The shortest decimal that reads back as a given number, and the decimal with a
fixed count of significant digits.  Both work on the magnitude of a finite
number other than zero, as an exact quotient of naturals.
-/

/--
The reals that round to a magnitude, as numerators over one denominator: the
lower end, the magnitude itself, the upper end, the denominator, and whether the
ends belong to it.
-/
structure RoundingInterval where
  lower : Nat
  value : Nat
  upper : Nat
  denominator : Nat
  closed : Bool
  deriving Repr, DecidableEq

/--
The rounding interval of a number.  The distance to the number below is halved
at a power of two, where the exponent changes.
-/
def roundingInterval
    (x : Binary64) :
    RoundingInterval :=
  let up := Nat.pow 2 x.exponent.toNat
  let below := if x.significand = significandUnit ∧ -1074 < x.exponent then 1 else 2
  { lower := (4 * x.significand - below) * up
    value := 4 * x.significand * up
    upper := (4 * x.significand + 2) * up
    denominator := 4 * Nat.pow 2 (-x.exponent).toNat
    closed := x.significand % 2 == 0 }

namespace RoundingInterval

/-- Whether `mantissa · 10 ^ scale` lies in the interval. -/
def holds
    (i : RoundingInterval)
    (mantissa : Nat)
    (scale : Int) :
    Bool :=
  let point := mantissa * Nat.pow 10 scale.toNat * i.denominator
  let unit := Nat.pow 10 (-scale).toNat
  if i.closed then
    decide (i.lower * unit ≤ point) && decide (point ≤ i.upper * unit)
  else
    decide (i.lower * unit < point) && decide (point < i.upper * unit)

/--
The power of ten of the first digit of the value: the estimate from the binary
logarithms is at most one too low.
-/
def power
    (i : RoundingInterval) :
    Int :=
  let estimate : Int := (((i.value.log2 : Int) - i.denominator.log2 - 1) * 30103).fdiv 100000
  let reaches (p : Int) : Bool :=
    decide (Nat.pow 10 p.toNat * i.denominator ≤ i.value * Nat.pow 10 (-p).toNat)
  if reaches (estimate + 1) then estimate + 1 else estimate

/--
The best decimal whose last digit has the place `scale`: of the two neighbours of
the value on that grid, the nearer one that lies in the interval.
-/
def nearestOn?
    (i : RoundingInterval)
    (scale : Int) :
    Option Nat :=
  let num := i.value * Nat.pow 10 (-scale).toNat
  let den := i.denominator * Nat.pow 10 scale.toNat
  let floor := num / den
  let lowFits := i.holds floor scale
  let highFits := i.holds (floor + 1) scale
  if lowFits && (!highFits || 2 * (num % den) < den) then some floor
  else if highFits then some (floor + 1)
  else none

/--
The coarsest grid, from `scale` on and trying `attempts` grids, that has a point in the
interval.
-/
def firstFrom
    (i : RoundingInterval)
    (scale : Int) :
    Nat → Decimal.Scientific
  | 0 => Decimal.Scientific.ofNat (i.value / i.denominator) 0
  | attempts + 1 =>
      match i.nearestOn? scale with
      | some mantissa => Decimal.Scientific.ofNat mantissa scale
      | none => firstFrom i (scale - 1) attempts

end RoundingInterval

/--
The shortest decimal that rounds to the number, and among those the nearest to
it.  Seventeen digits always suffice.
-/
def shortest
    (x : Binary64) :
    Decimal.Scientific :=
  let interval := x.roundingInterval
  interval.firstFrom interval.power 18

/-- The decimal with `count` significant digits, a half rounded away from zero. -/
def toDigits
    (x : Binary64)
    (count : Nat) :
    Decimal.Scientific :=
  let interval := x.roundingInterval
  let scale := interval.power - (count - 1 : Nat)
  let num := interval.value * Nat.pow 10 (-scale).toNat
  let den := interval.denominator * Nat.pow 10 scale.toNat
  let rounded := if den ≤ 2 * (num % den) then num / den + 1 else num / den
  Decimal.Scientific.ofNat rounded scale

end FullTextQuery.Binary64
