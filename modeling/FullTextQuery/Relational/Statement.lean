import FullTextQuery.Relational.Expr

namespace FullTextQuery

/-!
# Select statements
-/

/-- A table under an alias. -/
structure AliasedTable where
  table : String
  tableAlias : String
  deriving Repr, DecidableEq

/-- A joined table and its condition. -/
structure JoinedTable where
  table : AliasedTable
  on : RelExpr
  deriving Repr, DecidableEq

/-- A result column. -/
structure OutputColumn where
  expr : RelExpr
  name : String
  deriving Repr, DecidableEq

/-- A sort term. -/
structure OrderTerm where
  expr : RelExpr
  descending : Bool
  deriving Repr, DecidableEq

/-- A select statement over joined tables. -/
structure Statement where
  projection : List OutputColumn
  source : AliasedTable
  joins : List JoinedTable := []
  predicate? : Option RelExpr := none
  ordering : List OrderTerm := []
  limit? : Option UInt64 := none
  deriving Repr, DecidableEq

/-- Who supplies a parameter: the caller a value, or a search the set of the values it found. -/
inductive Supplier where
  | caller
  | search
  deriving Repr, DecidableEq

/-- A named parameter of a statement. -/
structure StatementParameter where
  name : String
  supplier : Supplier
  deriving Repr, DecidableEq

/-- The text of a statement and its parameters in the order of their first use. -/
structure StatementText where
  text : String
  parameters : List StatementParameter
  deriving Repr, DecidableEq

end FullTextQuery
