import FullTextQuery.Planner.Basic

namespace FullTextQuery

/-!
# Drafts

The second half of planning: every part of a lowered query is resolved, and the parts
make a statement, whose predicate is the conjunction of the filters.
-/

/-- A statement and what the steps of a run need beside it. -/
structure Draft where
  statement : Statement
  filters : List LoweredFilter
  columns : List ResultColumn
  searches : List PlannedSearch
  deriving Repr, DecidableEq

namespace Planner

/-- Resolve one expression of a query. -/
def resolve
    (planner : Planner)
    (scope : Scope)
    (e : RelExpr) :
    Except Error RelExpr :=
  e.resolve planner.extensions.resolution scope

/-- Resolve a filter. -/
def resolveFilter
    (planner : Planner)
    (scope : Scope)
    (filter : LoweredFilter) :
    Except Error LoweredFilter := do
  return { filter with lowered := ← planner.resolve scope filter.lowered }

/-- Resolve a join. -/
def resolveJoin
    (planner : Planner)
    (scope : Scope)
    (join : LoweredJoin) :
    Except Error JoinedTable := do
  let entity ← (planner.model.entity join.source.entity).mapError .plan
  return ⟨⟨entity.table, join.source.item⟩, ← planner.resolve scope join.on⟩

/-- Resolve a result column. -/
def resolveColumn
    (planner : Planner)
    (scope : Scope)
    (column : LoweredColumn) :
    Except Error OutputColumn := do
  return ⟨← planner.resolve scope column.expr, column.column.name⟩

/-- Resolve a sort term. -/
def resolveOrderTerm
    (planner : Planner)
    (scope : Scope)
    (term : OrderTerm) :
    Except Error OrderTerm := do
  return { term with expr := ← planner.resolve scope term.expr }

/-- The conjunction of predicates, grouped to the left; there is none of no predicates. -/
def conjunction? : List RelExpr → Option RelExpr
  | [] => none
  | e :: es => some (es.foldl .and e)

/-- Resolve all parts of a query into a statement. -/
def resolveQuery
    (planner : Planner)
    (scope : Scope)
    (query : Query)
    (lowered : LoweredQuery)
    (searches : List PlannedSearch) :
    Except Error Draft := do
  let filters ← lowered.filters.mapM (planner.resolveFilter scope)
  let joins ← lowered.joins.mapM (planner.resolveJoin scope)
  let projection ← lowered.projection.mapM (planner.resolveColumn scope)
  let ordering ← lowered.ordering.mapM (planner.resolveOrderTerm scope)
  let root ← (planner.model.entity query.source.entity).mapError .plan
  let statement : Statement :=
    { projection
      source := ⟨root.table, query.source.item⟩
      joins
      predicate? := conjunction? (filters.map (·.lowered))
      ordering
      limit? := query.limit? }
  return { statement, filters, columns := lowered.projection.map (·.column), searches }

/-- The draft of a query. -/
def draft
    (planner : Planner)
    (query : Query) :
    Except Error Draft := do
  let scope ← (Scope.ofQuery planner.model query).mapError .plan
  let (result, searches) := (planner.lowerQuery scope query).run.run {}
  let lowered ← result
  planner.resolveQuery scope query lowered searches.recorded

end Planner

end FullTextQuery
