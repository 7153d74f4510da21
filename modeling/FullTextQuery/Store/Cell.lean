import FullTextQuery.Text.Utf8
import FullTextQuery.Value

namespace FullTextQuery.Store

/-!
# Cells

What a table stores, and how the classes of cells turn into one another:
numbers into text, text that looks like a number into a number, and anything
into a truth value.
-/

/-- A stored scalar. -/
inductive Cell where
  | null
  | integer (n : Int64)
  | real (x : Binary64)
  | text (s : String)
  | blob (bytes : List UInt8)
  deriving Repr, DecidableEq

/-- Whether a character may surround a number in a text. -/
def isNumberSpace
    (c : Char) :
    Bool :=
  c == ' ' || (decide (9 ≤ c.toNat) && decide (c.toNat ≤ 13))

/-- A number in a text: whether it has a point or an exponent, and its value both ways. -/
structure TextNumber where
  negative : Bool
  numeral : Decimal.Numeral
  pointed : Bool
  deriving Repr, DecidableEq

namespace TextNumber

variable [NumeralReading]

/-- The number as the real that the store takes its numeral for. -/
def real
    (n : TextNumber) :
    Binary64 :=
  NumeralReading.real n.negative n.numeral

/-- The number as an integer cell if it is written as one and fits, otherwise as a real cell. -/
def cell
    (n : TextNumber) :
    Cell :=
  let magnitude : Int := n.numeral.mantissa
  let integer? :=
    if n.pointed then none
    else Decimal.int64OfInt? (if n.negative then -magnitude else magnitude)
  match integer? with
  | some i => .integer i
  | none => .real n.real

end TextNumber

/-- The number that a text begins with, behind blanks and a sign, and the text behind it. -/
def leadingNumber?
    (cs : List Char) :
    Option (TextNumber × List Char) :=
  let (negative, unsigned) :=
    match cs.dropWhile isNumberSpace with
    | '-' :: rest => (true, rest)
    | '+' :: rest => (false, rest)
    | rest => (false, rest)
  (Decimal.numeral? unsigned).map fun (numeral, pointed, rest) =>
    (⟨negative, numeral, pointed⟩, rest)

/-- The number that a whole text spells, blanks around it allowed. -/
def wholeNumber?
    (cs : List Char) :
    Option TextNumber :=
  match leadingNumber? cs with
  | some (n, rest) => if rest.all isNumberSpace then some n else none
  | none => none

/-- The integer equal to a real, strictly inside the range of 64 bits. -/
def exactInteger?
    (x : Binary64) :
    Option Int64 :=
  match x.integer? with
  | some n =>
      if -0x8000000000000000 < n ∧ n < 0x7FFFFFFFFFFFFFFF then some (Int64.ofInt n) else none
  | none => none

namespace Cell

variable [NumeralReading]

/-- A cell that holds a value; what is not a number is null. -/
def ofValue : Value → Cell
  | .null => .null
  | .integer n => .integer n
  | .real x => if x.isNaN then .null else .real x
  | .text s => .text s

/-- The value that a cell is read as; bytes are read as text. -/
def toValue : Cell → Value
  | .null => .null
  | .integer n => .integer n
  | .real x => .real x
  | .text s => .text s
  | .blob bytes => .text (Text.decodeUtf8Lossy bytes)

/-- The text of a cell; null has none. -/
def text? : Cell → Option String
  | .null => none
  | .integer n => some (Decimal.ofInt n.toInt)
  | .real x => some x.toStored
  | .text s => some s
  | .blob bytes => some (Text.decodeUtf8Lossy bytes)

/-- Numbers become text. -/
def numberToText : Cell → Cell
  | .integer n => .text (Decimal.ofInt n.toInt)
  | .real x => .text x.toStored
  | cell => cell

/-- A text that looks like a number becomes one. -/
def textToNumber : Cell → Cell
  | .text s =>
      match wholeNumber? s.toList with
      | some n => n.cell
      | none => .text s
  | cell => cell

/-- A real that is equal to an integer becomes one. -/
def realToInteger : Cell → Cell
  | .real x =>
      match exactInteger? x with
      | some n => .integer n
      | none => .real x
  | cell => cell

/-- An integer becomes the nearest real. -/
def integerToReal : Cell → Cell
  | .integer n => .real (Binary64.ofInt n.toInt)
  | cell => cell

/-- The number that a text begins with, as a real; zero if there is none. -/
def leadingReal
    (s : String) :
    Binary64 :=
  match leadingNumber? s.toList with
  | some (n, _) => n.real
  | none => Binary64.zero false

/-- The truth value of a cell: whether its number is not zero.  Null has none. -/
def truth? : Cell → Option Bool
  | .null => none
  | .integer n => some (n != 0)
  | .real x => some (!x.isZero)
  | .text s => some (!(leadingReal s).isZero)
  | .blob bytes => some (!(leadingReal (Text.decodeUtf8Lossy bytes)).isZero)

/-- The cell of a truth value. -/
def ofTruth : Option Bool → Cell
  | none => .null
  | some true => .integer 1
  | some false => .integer 0

end Cell

end FullTextQuery.Store
