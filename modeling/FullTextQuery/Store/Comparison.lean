import FullTextQuery.Store.Cell

namespace FullTextQuery.Store

/-!
# Comparing cells

Cells are ordered null first, then numbers, then text, then bytes.  Before two
operands are compared, the affinity of a column among them may turn texts into
numbers or numbers into texts.
-/

/-- What a column does to the cells compared with it or stored in it. -/
inductive Affinity where
  | integer
  | real
  | text
  | none
  deriving Repr, DecidableEq

namespace Affinity

/-- Whether the affinity is for numbers. -/
def isNumeric : Affinity → Bool
  | .integer | .real => true
  | .text | .none => false

/-- A cell as a column with this affinity stores it. -/
def store
    [NumeralReading]
    (affinity : Affinity)
    (cell : Cell) :
    Cell :=
  match affinity with
  | .integer => cell.textToNumber.realToInteger
  | .real => cell.textToNumber.realToInteger.integerToReal
  | .text => cell.numberToText
  | .none => cell

end Affinity

/-- What is done to both operands of a comparison. -/
inductive Conversion where
  | toNumber
  | toText
  | nothing
  deriving Repr, DecidableEq

namespace Conversion

/-- The conversion of a single column. -/
def ofAffinity : Affinity → Conversion
  | .integer | .real => .toNumber
  | .text => .toText
  | .none => .nothing

/--
The conversion for two operands, each with the affinity of its column if it is
one.  Of two columns, one for numbers decides; of one column, it decides.
-/
def ofOperands : Option Affinity → Option Affinity → Conversion
  | some a, some b => if a.isNumeric || b.isNumeric then .toNumber else .nothing
  | some a, none => ofAffinity a
  | none, some b => ofAffinity b
  | none, none => .nothing

/-- An operand after the conversion. -/
def convert
    [NumeralReading]
    (conversion : Conversion)
    (cell : Cell) :
    Cell :=
  match conversion with
  | .toNumber => cell.textToNumber
  | .toText => cell.numberToText
  | .nothing => cell

end Conversion

/-- The order of byte strings. -/
def compareBytes : List UInt8 → List UInt8 → Ordering
  | [], [] => .eq
  | [], _ :: _ => .lt
  | _ :: _, [] => .gt
  | a :: as, b :: bs =>
      match Ord.compare a b with
      | .eq => compareBytes as bs
      | decided => decided

/-- The order of texts: that of their code points, which is that of their UTF-8 bytes. -/
def compareChars : List Char → List Char → Ordering
  | [], [] => .eq
  | [], _ :: _ => .lt
  | _ :: _, [] => .gt
  | a :: as, b :: bs =>
      match Ord.compare a.toNat b.toNat with
      | .eq => compareChars as bs
      | decided => decided

namespace Cell

/-- The place of a cell's class among the classes. -/
def classRank : Cell → Nat
  | .null => 0
  | .integer _ | .real _ => 1
  | .text _ => 2
  | .blob _ => 3

/-- The order of cells.  Numbers compare exactly, whatever their classes. -/
def compare
    (a b : Cell) :
    Ordering :=
  match a, b with
  | .integer m, .integer n => Ord.compare m.toInt n.toInt
  | .integer m, .real y => (y.compareInt m.toInt).swap
  | .real x, .integer n => x.compareInt n.toInt
  | .real x, .real y => x.compare y
  | .text s, .text t => compareChars s.toList t.toList
  | .blob s, .blob t => compareBytes s t
  | a, b => Ord.compare a.classRank b.classRank

/-- Whether two cells are equal, which nothing is to null and null is to nothing. -/
def equal?
    (a b : Cell) :
    Option Bool :=
  match a, b with
  | .null, _ => none
  | _, .null => none
  | a, b => some (a.compare b == .eq)

end Cell

end FullTextQuery.Store
