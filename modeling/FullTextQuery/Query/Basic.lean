import FullTextQuery.Query.Expr

namespace FullTextQuery

/-!
# Queries

A query ranges over a root entity and joined ones, filters, projects, sorts and
limits.
-/

/-- An item variable and the entity it ranges over. -/
structure Source where
  item : String
  entity : String
  deriving Repr, DecidableEq

/-- A joined source with the two sides of its equality. -/
structure Join where
  source : Source
  left : Expr
  right : Expr
  deriving Repr, DecidableEq

/-- One sort key. -/
structure SortKey where
  expr : Expr
  descending : Bool
  deriving Repr, DecidableEq

/--
A query.  The filters are combined by conjunction, an empty projection stands
for every property of the root entity, and a limit is the greatest number of
rows.
-/
structure Query where
  source : Source
  joins : List Join := []
  filters : List Expr := []
  projection : List Expr := []
  ordering : List SortKey := []
  limit? : Option UInt64 := none
  deriving Repr, DecidableEq

namespace Query

/-- The root source followed by the joined ones. -/
def sources
    (query : Query) :
    List Source :=
  query.source :: query.joins.map (·.source)

end Query

end FullTextQuery
