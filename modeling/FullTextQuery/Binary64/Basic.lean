namespace FullTextQuery

/-!
# Binary64 numbers

The double-precision numbers of IEEE 754, kept as their 64 bits.  Everything
the query engine does with them is exact: a finite number is a significand
times a power of two, a decimal is rounded to the nearest number with ties to
the even significand, and comparisons are comparisons of rationals.
-/

/-- A double-precision number, by its bits. -/
structure Binary64 where
  bits : UInt64
  deriving Repr, DecidableEq

namespace Binary64

/-- The least code with the sign bit set, `2 ^ 63`. -/
def signUnit : Nat :=
  0x8000000000000000

/-- The least code with an exponent above the lowest one, `2 ^ 52`. -/
def significandUnit : Nat :=
  0x10000000000000

/-- The magnitude code of infinity; greater codes are not numbers. -/
def infinityCode : Nat :=
  0x7FF * significandUnit

/-- The number with a sign and a magnitude code. -/
def ofCode
    (negative : Bool)
    (code : Nat) :
    Binary64 :=
  ⟨UInt64.ofNat ((if negative then signUnit else 0) + code)⟩

/-- Whether the sign bit is set. -/
def negative
    (x : Binary64) :
    Bool :=
  decide (signUnit ≤ x.bits.toNat)

/-- The bits without the sign; magnitudes are ordered as their codes. -/
def code
    (x : Binary64) :
    Nat :=
  x.bits.toNat % signUnit

def isNaN
    (x : Binary64) :
    Bool :=
  decide (infinityCode < x.code)

def isInfinite
    (x : Binary64) :
    Bool :=
  x.code == infinityCode

def isZero
    (x : Binary64) :
    Bool :=
  x.code == 0

/-- Something that is not a number. -/
def nan : Binary64 :=
  ofCode false (infinityCode + significandUnit / 2)

def infinity
    (negative : Bool) :
    Binary64 :=
  ofCode negative infinityCode

def zero
    (negative : Bool) :
    Binary64 :=
  ofCode negative 0

/-- The integer significand of a finite number. -/
def significand
    (x : Binary64) :
    Nat :=
  if x.code / significandUnit = 0 then x.code else x.code % significandUnit + significandUnit

/-- The power of two that goes with the significand. -/
def exponent
    (x : Binary64) :
    Int :=
  if x.code / significandUnit = 0 then -1074 else (x.code / significandUnit : Nat) - 1075

/-- The magnitude of a finite number as a quotient of naturals. -/
def ratio
    (x : Binary64) :
    Nat × Nat :=
  (x.significand * Nat.pow 2 x.exponent.toNat, Nat.pow 2 (-x.exponent).toNat)

/-- The same magnitude with the other sign. -/
def negate
    (x : Binary64) :
    Binary64 :=
  ofCode (!x.negative) x.code

/-- The same magnitude without a sign, unless it is zero or not a number. -/
def abs
    (x : Binary64) :
    Binary64 :=
  if x.negative && !x.isZero && !x.isNaN then x.negate else x

/-- A quotient rounded to the nearest natural, a tie to the even one. -/
def roundQuotient
    (num den : Nat) :
    Nat :=
  let quotient := num / den
  let twice := 2 * (num % den)
  if twice < den || (twice == den && quotient % 2 == 0) then quotient else quotient + 1

/--
The magnitude code nearest to a positive quotient.  The exponent is chosen so
that the significand has 53 bits, or is the least one; a significand that
rounds up to 54 bits carries into the exponent by itself.
-/
def codeOfRatio
    (num den : Nat) :
    Nat :=
  if num = 0 then
    0
  else
    let guess : Int := (num.log2 : Int) - den.log2 - 53
    let low : Int :=
      if num / Nat.pow 2 guess.toNat * Nat.pow 2 (-guess).toNat / den < 2 * significandUnit then
        guess
      else
        guess + 1
    let scale : Int := max low (-1074)
    let code :=
      (scale + 1074).toNat * significandUnit
        + roundQuotient (num * Nat.pow 2 (-scale).toNat) (den * Nat.pow 2 scale.toNat)
    min code infinityCode

/-- The number nearest to a signed quotient. -/
def ofRatio
    (negative : Bool)
    (num den : Nat) :
    Binary64 :=
  ofCode negative (codeOfRatio num den)

/-- The number nearest to an integer. -/
def ofInt
    (n : Int) :
    Binary64 :=
  ofRatio (n < 0) n.natAbs 1

/--
The number nearest to `mantissa · 10 ^ power`.  Powers beyond the range of the
format are answered without computing them.
-/
def ofDecimal
    (negative : Bool)
    (mantissa : Nat)
    (power : Int) :
    Binary64 :=
  let length : Int := (Nat.toDigits 10 mantissa).length
  if mantissa = 0 then
    zero negative
  else if 310 < length + power then
    infinity negative
  else if length + power < -330 then
    zero negative
  else
    ofRatio negative (mantissa * Nat.pow 10 power.toNat) (Nat.pow 10 (-power).toNat)

/-- The exact order of two numbers that are not NaN; the zeros are equal. -/
def compare
    (x y : Binary64) :
    Ordering :=
  if x.isZero && y.isZero then
    .eq
  else if x.negative then
    if y.negative then Ord.compare y.code x.code else .lt
  else
    if y.negative then .gt else Ord.compare x.code y.code

/-- The exact order of a number that is not NaN and an integer. -/
def compareInt
    (x : Binary64)
    (n : Int) :
    Ordering :=
  if x.isInfinite then
    if x.negative then .lt else .gt
  else
    let (num, den) := x.ratio
    let signed : Int := if x.negative then -(num : Int) else num
    Ord.compare signed (n * den)

/-- The integer that the number is equal to, if there is one. -/
def integer?
    (x : Binary64) :
    Option Int :=
  if infinityCode ≤ x.code then
    none
  else
    let (num, den) := x.ratio
    if num % den = 0 then
      some (if x.negative then -((num / den : Nat) : Int) else ((num / den : Nat) : Int))
    else
      none

/-- Numerical equality: NaN differs from everything and the zeros are equal. -/
def agrees
    (x y : Binary64) :
    Bool :=
  !x.isNaN && !y.isNaN && (compare x y == .eq)

end Binary64

end FullTextQuery
