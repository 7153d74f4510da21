import FullTextQuery.Decimal.Integer

namespace FullTextQuery.Decimal

/-!
# Positive decimals and their layouts

A positive decimal is a list of significant digits and the power of ten of the
first one.  The layouts only place a point, zeros and an exponent; none of them
changes the value.  `Scientific.read` goes the other way for unsigned numerals.
-/

/-- The number `d.ddd… · 10 ^ power`; the digits are not empty. -/
structure Scientific where
  digits : List Char
  power : Int
  deriving Repr, DecidableEq

namespace Scientific

/-- Drop the zeros after the last digit that is not zero. -/
def stripZeros
    (digits : List Char) :
    List Char :=
  (digits.reverse.dropWhile (· == '0')).reverse

/-- The decimal `mantissa · 10 ^ scale` of a positive mantissa, without final zeros. -/
def ofNat
    (mantissa : Nat)
    (scale : Int) :
    Scientific :=
  let all := Decimal.digits mantissa
  ⟨stripZeros all, scale + (all.length - 1 : Nat)⟩

/-- The digits before the point of the positional layout. -/
def wholeDigits
    (d : Scientific) :
    List Char :=
  if d.power < 0 then
    ['0']
  else
    let count := d.power.toNat + 1
    d.digits.take count ++ List.replicate (count - d.digits.length) '0'

/-- The digits after the point of the positional layout, possibly none. -/
def fractionDigits
    (d : Scientific) :
    List Char :=
  if d.power < 0 then
    List.replicate (-d.power - 1).toNat '0' ++ d.digits
  else
    d.digits.drop (d.power.toNat + 1)

/-- Positional notation; a number without a fraction has no point. -/
def plain
    (d : Scientific) :
    List Char :=
  match d.fractionDigits with
  | [] => d.wholeDigits
  | fraction => d.wholeDigits ++ '.' :: fraction

/-- Positional notation with at least one digit after the point. -/
def pointed
    (d : Scientific) :
    List Char :=
  match d.fractionDigits with
  | [] => d.wholeDigits ++ ['.', '0']
  | fraction => d.wholeDigits ++ '.' :: fraction

/-- One digit, the other digits behind a point if there are any, and an exponent. -/
def exponential
    (d : Scientific)
    (exponent : List Char) :
    List Char :=
  match d.digits with
  | [] => exponent
  | [first] => first :: 'e' :: exponent
  | first :: others => first :: '.' :: others ++ 'e' :: exponent

end Scientific

/-- An unsigned numeral: its digits without the point, and the power of ten they stand for. -/
structure Numeral where
  digits : List Char
  scale : Int
  deriving Repr, DecidableEq

namespace Numeral

/-- The integer that the digits spell. -/
def mantissa
    (n : Numeral) :
    Nat :=
  ofDigits n.digits

end Numeral

/-- The exponent behind an `e`: an optional sign and at least one digit. -/
def exponent? :
    List Char → Option (Int × List Char)
  | '+' :: rest => takeExponent false rest
  | '-' :: rest => takeExponent true rest
  | rest => takeExponent false rest
where
  takeExponent (negative : Bool) (cs : List Char) : Option (Int × List Char) :=
    match cs.takeWhile isDigit with
    | [] => none
    | ds =>
        let n : Int := ofDigits ds
        some (if negative then -n else n, cs.dropWhile isDigit)

/--
The longest unsigned numeral at the beginning of a text: digits, a point and
digits, with at least one digit in all, and an exponent if a complete one
follows.  The last component tells whether there was a point or an exponent.
-/
def numeral?
    (cs : List Char) :
    Option (Numeral × Bool × List Char) :=
  let whole := cs.takeWhile isDigit
  let afterWhole := cs.dropWhile isDigit
  let (fraction, pointed, rest) :=
    match afterWhole with
    | '.' :: tail => (tail.takeWhile isDigit, true, tail.dropWhile isDigit)
    | _ => ([], false, afterWhole)
  if whole.isEmpty && fraction.isEmpty then
    none
  else
    let plain : Numeral := ⟨whole ++ fraction, -(fraction.length : Int)⟩
    match rest with
    | c :: tail =>
        if c = 'e' ∨ c = 'E' then
          match exponent? tail with
          | some (power, after) => some ({ plain with scale := plain.scale + power }, true, after)
          | none => some (plain, pointed, rest)
        else
          some (plain, pointed, rest)
    | [] => some (plain, pointed, rest)

end FullTextQuery.Decimal
