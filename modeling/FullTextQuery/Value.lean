import FullTextQuery.Binary64.Text

namespace FullTextQuery

/-!
# Values

The scalars that travel between queries, the store and the caller, and the
declared kinds of the properties that hold them.
-/

/-- The declared kind of an entity property. -/
inductive ScalarKind where
  | integer
  | real
  | text
  deriving Repr, DecidableEq

namespace ScalarKind

/-- The word for the kind in messages. -/
def name : ScalarKind → String
  | .integer => "Integer"
  | .real => "Real"
  | .text => "Text"

end ScalarKind

/-- A single scalar. -/
inductive Value where
  | null
  | integer (n : Int64)
  | real (x : Binary64)
  | text (s : String)
  deriving Repr, DecidableEq

namespace Value

/-- The kind of a value; null has none. -/
def kind? : Value → Option ScalarKind
  | .null => none
  | .integer _ => some .integer
  | .real _ => some .real
  | .text _ => some .text

/-- The text of a text value. -/
def text? : Value → Option String
  | .text s => some s
  | _ => none

/-- The number of an integer value. -/
def integer? : Value → Option Int64
  | .integer n => some n
  | _ => none

/-- The text of a value in messages and records. -/
def display : Value → String
  | .null => "null"
  | .integer n => Decimal.ofInt n.toInt
  | .real x => x.toPlain
  | .text s => s

/-- Equality of values as numbers and texts: reals are compared numerically. -/
def agrees : Value → Value → Bool
  | .real x, .real y => x.agrees y
  | a, b => a == b

end Value

end FullTextQuery
