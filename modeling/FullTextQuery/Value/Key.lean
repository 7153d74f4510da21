import FullTextQuery.Error
import FullTextQuery.Text.Blank

namespace FullTextQuery.Value

/-!
# Keys

A search service hands back keys as texts.  Before they are compared with a key
property they become values of its kind.
-/

/-- The value of a key for a property of the given kind. -/
def ofKey
    (raw : String) :
    ScalarKind → Except SearchError Value
  | .text => .ok (.text raw)
  | .integer =>
      match Decimal.int64? (Text.trimBlanks raw.toList) with
      | some n => .ok (.integer n)
      | none => .error (.invalidIntegerKey raw)
  | .real => .error (.realKey raw)

end FullTextQuery.Value
