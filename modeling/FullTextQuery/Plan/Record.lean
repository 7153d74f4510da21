import FullTextQuery.Error

namespace FullTextQuery

/-!
# Records

A result row: named values in projection order.
-/

/-- The named values of one result row. -/
structure Record where
  fields : List (String × Value)
  deriving Repr, DecidableEq

namespace Record

/-- The first value under a name. -/
def get?
    (record : Record)
    (name : String) :
    Option Value :=
  record.fields.lookup name

/-- The value under a name, which must be there. -/
def field
    (record : Record)
    (name : String) :
    Except RunError Value :=
  match record.get? name with
  | some value => .ok value
  | none => .error (.missingField name)

/-- The text of the value under a name; null reads as the empty text. -/
def text
    (record : Record)
    (name : String) :
    Except RunError String := do
  match ← record.field name with
  | .null => return ""
  | value => return value.display

/-- The integer under a name. -/
def integer
    (record : Record)
    (name : String) :
    Except RunError Int64 := do
  match (← record.field name).integer? with
  | some n => return n
  | none => .error (.fieldNotInteger name)

end Record

end FullTextQuery
