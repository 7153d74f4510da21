import FullTextQuery.Relational.Expr

namespace FullTextQuery

/-!
# Planned searches

When a search call of a query becomes a membership test, what the run has to ask the
search service is put on record under the identity of the call.
-/

/-- What a search call asks of a run: its text, the index, and the parameter that takes the keys. -/
structure PlannedSearch where
  id : SearchId
  parameter : String
  phrase : Expr.SearchPhrase
  index : String
  entity : String
  keyName : String
  keyKind : ScalarKind
  deriving Repr, DecidableEq

/-- The searches on record, in order, and the identity that was handed out last. -/
structure PlannedSearches where
  recorded : List PlannedSearch := []
  lastId : SearchId := 0
  deriving Repr, DecidableEq

namespace PlannedSearches

/-- The first search with an identity. -/
def find?
    (searches : PlannedSearches)
    (id : SearchId) :
    Option PlannedSearch :=
  searches.recorded.find? (·.id == id)

/-- The record after handing out the next identity. -/
def advance
    (searches : PlannedSearches) :
    PlannedSearches :=
  { searches with lastId := searches.lastId + 1 }

/-- The record with one more search. -/
def add
    (searches : PlannedSearches)
    (search : PlannedSearch) :
    PlannedSearches :=
  { searches with recorded := searches.recorded ++ [search] }

end PlannedSearches

end FullTextQuery
