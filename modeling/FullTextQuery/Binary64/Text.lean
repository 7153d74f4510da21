import FullTextQuery.Binary64.Shortest

namespace FullTextQuery

namespace Binary64

/-!
# The texts of binary64 numbers

Four layouts share the shortest digits or a fixed count of them: the plain text
of messages, the literal of SQL text, the number of a JSON document, and the
text that the store makes of a stored number.
-/

/-- A signed text: what is laid out for the magnitude, with a minus sign where needed. -/
def signed
    (x : Binary64)
    (zeroText : List Char)
    (layout : Decimal.Scientific → List Char) :
    String :=
  if x.isNaN then
    "NaN"
  else
    let magnitude :=
      if x.isInfinite then "inf".toList
      else if x.isZero then zeroText
      else layout x.shortest
    String.ofList (if x.negative then '-' :: magnitude else magnitude)

/-- Positional notation without an exponent and without a point behind whole numbers. -/
def toPlain
    (x : Binary64) :
    String :=
  x.signed ['0'] Decimal.Scientific.plain

/-- Positional notation with a point from `10 ^ -4` to below `10 ^ 16`, an exponent elsewhere. -/
def toLiteral
    (x : Binary64) :
    String :=
  x.signed ['0', '.', '0'] fun d =>
    if -4 ≤ d.power ∧ d.power < 16 then
      d.pointed
    else
      d.exponential (Decimal.ofInt d.power).toList

/--
Positional notation with a point from `10 ^ -5` to below `10 ^ 16`, a signed exponent
elsewhere.
-/
def toJsonNumber
    (x : Binary64) :
    String :=
  x.signed ['0', '.', '0'] fun d =>
    if -5 ≤ d.power ∧ d.power < 16 then
      d.pointed
    else if d.power < 0 then
      d.exponential (Decimal.ofInt d.power).toList
    else
      d.exponential ('+' :: (Decimal.ofInt d.power).toList)

/--
Fifteen significant digits: positional with a point from `10 ^ -4` to below
`10 ^ 15`, elsewhere with a point and an exponent of at least two digits.  The digits
are those of the exact value; a store finds them in extended precision.
-/
def toStored
    (x : Binary64) :
    String :=
  if x.isNaN then
    ""
  else
    let magnitude :=
      if x.isInfinite then
        "Inf".toList
      else if x.isZero then
        ['0', '.', '0']
      else
        let d := x.toDigits 15
        if -4 ≤ d.power ∧ d.power < 15 then
          d.pointed
        else
          let mark := if d.power < 0 then '-' else '+'
          let exponent := Decimal.digits d.power.natAbs
          let padded := if exponent.length < 2 then '0' :: exponent else exponent
          match d.digits with
          | [first] => first :: '.' :: '0' :: 'e' :: mark :: padded
          | _ => d.exponential (mark :: padded)
    String.ofList (if x.negative && !x.isZero then '-' :: magnitude else magnitude)

/-- The number nearest to a numeral with a sign. -/
def ofNumeral
    (negative : Bool)
    (numeral : Decimal.Numeral) :
    Binary64 :=
  ofDecimal negative numeral.mantissa numeral.scale

end Binary64

/--
How a store takes a numeral with a sign for a double: a double near it, which need
not be the nearest one.
-/
class NumeralReading where
  real : (negative : Bool) → Decimal.Numeral → Binary64

namespace Binary64

/-- The magnitude read from a whole text: a numeral, or a name of infinity or NaN in any case. -/
def magnitude?
    (negative : Bool)
    (cs : List Char) :
    Option Binary64 :=
  match String.ofList (cs.map Char.toLower) with
  | "inf" | "infinity" => some (infinity negative)
  | "nan" => some nan
  | _ =>
      match Decimal.numeral? cs with
      | some (numeral, _, []) => some (ofNumeral negative numeral)
      | _ => none

/-- The number that a whole text denotes, with an optional sign. -/
def ofText?
    (text : String) :
    Option Binary64 :=
  match text.toList with
  | '-' :: rest => magnitude? true rest
  | '+' :: rest => magnitude? false rest
  | rest => magnitude? false rest

end Binary64

end FullTextQuery
