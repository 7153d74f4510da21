import FullTextQuery.Error
import FullTextQuery.Store.Cell
import FullTextQuery.Store.Pattern

namespace FullTextQuery.Store

/-!
# Functions of one cell

The functions that statements may call.  All of them take null to null.  Only
ASCII letters have a case, and only the space is trimmed.
-/

/-- A function of one cell. -/
inductive ScalarFunction where
  | lower
  | upper
  | length
  | trim
  | abs
  deriving Repr, DecidableEq

namespace ScalarFunction

/-- The functions by their names in lower case. -/
def named : List (String × ScalarFunction) :=
  [("lower", .lower), ("upper", .upper), ("length", .length), ("trim", .trim), ("abs", .abs)]

/-- The function with a name, in whatever case it is written. -/
def ofName?
    (name : String) :
    Option ScalarFunction :=
  named.lookup (String.ofList (name.toList.map Char.toLower))

/-- A text without the spaces at both ends. -/
def trimSpaces
    (cs : List Char) :
    List Char :=
  ((cs.dropWhile (· == ' ')).reverse.dropWhile (· == ' ')).reverse

/-- Apply a function to the text of a cell. -/
def onText
    (f : List Char → List Char)
    (cell : Cell) :
    Cell :=
  match cell.text? with
  | some text => .text (String.ofList (f text.toList))
  | none => .null

/-- The number of characters of a text before the first NUL, or the number of bytes. -/
def lengthOf : Cell → Cell
  | .blob bytes => .integer (Int64.ofNat bytes.length)
  | cell =>
      match cell.text? with
      | some text => .integer (Int64.ofNat (beforeNul text.toList).length)
      | none => .null

/-- A real without its sign; zero keeps it. -/
def absReal
    (x : Binary64) :
    Binary64 :=
  if x.isZero then x else x.abs

variable [NumeralReading]

/-- The distance from zero; the smallest integer has none. -/
def absOf : Cell → Except StoreError Cell
  | .null => .ok .null
  | .integer n => if n = Int64.minValue then .error .integerOverflow else .ok (.integer n.abs)
  | .real x => .ok (.real (absReal x))
  | .text s => .ok (.real (absReal (Cell.leadingReal s)))
  | .blob bytes => .ok (.real (absReal (Cell.leadingReal (Text.decodeUtf8Lossy bytes))))

/-- Apply a function to a cell. -/
def apply
    (function : ScalarFunction)
    (cell : Cell) :
    Except StoreError Cell :=
  match function with
  | .lower => .ok (onText (·.map Char.toLower) cell)
  | .upper => .ok (onText (·.map Char.toUpper) cell)
  | .length => .ok (lengthOf cell)
  | .trim => .ok (onText trimSpaces cell)
  | .abs => absOf cell

end ScalarFunction

end FullTextQuery.Store
