import FullTextQuery.Relational.PlannedSearch
import FullTextQuery.Relational.Statement

namespace FullTextQuery

/-!
# The steps of a run

What a plan does when it runs: a row step that runs a statement and makes records
of its rows, possibly behind a search step that asks the search service and keeps
the values of the keys it returns.  There is at most one search step; putting
another one in front changes nothing.
-/

/-- A result column and the declared kind of what it holds. -/
structure ResultColumn where
  name : String
  kind? : Option ScalarKind
  deriving Repr, DecidableEq

/-- The step that runs a statement: its text, its parameters and the columns of its records. -/
structure RowStep where
  sql : String
  parameters : List StatementParameter
  columns : List ResultColumn
  deriving Repr, DecidableEq

namespace RowStep

/-- Whether the statement reads a value set under a name. -/
def readsValueSet
    (step : RowStep)
    (name : String) :
    Bool :=
  step.parameters.any fun parameter =>
    parameter.name == name && parameter.supplier == .search

end RowStep

/-- The step that asks the search service and keeps the values of its keys. -/
structure SearchStep where
  id : SearchId
  parameter : String
  index : String
  phrase : Expr.SearchPhrase
  keyKind : ScalarKind
  deriving Repr, DecidableEq

namespace SearchStep

/-- The step of a planned search. -/
def ofSearch
    (search : PlannedSearch) :
    SearchStep where
  id := search.id
  parameter := search.parameter
  index := search.index
  phrase := search.phrase
  keyKind := search.keyKind

end SearchStep

/-- The steps of a run. -/
inductive Steps where
  | rowsOnly (rows : RowStep)
  | searchThenRows (search : SearchStep) (rows : RowStep)
  deriving Repr, DecidableEq

namespace Steps

/-- Put a search step in front, unless there is one. -/
def searchFirst
    (search : SearchStep) :
    Steps → Steps
  | .rowsOnly rows => .searchThenRows search rows
  | .searchThenRows earlier rows => .searchThenRows earlier rows

/-- The search step, if there is one. -/
def search? : Steps → Option SearchStep
  | .rowsOnly _ => none
  | .searchThenRows search _ => some search

/-- The row step. -/
def rowStep : Steps → RowStep
  | .rowsOnly rows => rows
  | .searchThenRows _ rows => rows

/-- Whether there is a search step. -/
def searchesFirst
    (steps : Steps) :
    Bool :=
  steps.search?.isSome

/-- One line that names the steps in order. -/
def summary
    (steps : Steps) :
    String :=
  let front :=
    match steps.search? with
    | some search =>
        "search[index=" ++ search.index ++ ", bind=:" ++ search.parameter ++ ", marker=#"
          ++ Decimal.ofInt search.id ++ "] -> "
    | none => ""
  front ++ "sql[" ++ steps.rowStep.sql ++ "] -> shape["
    ++ String.intercalate ", " (steps.rowStep.columns.map (·.name)) ++ "]"

end Steps

end FullTextQuery
