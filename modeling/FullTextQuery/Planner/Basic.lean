import FullTextQuery.Extension.Basic

namespace FullTextQuery

/-!
# The lowered query

The first half of planning: every part of a query is lowered, filters first, then
joins, the projection and the sort keys.  Only filters may put searches on record.
-/

/-- A model and the extensions with which queries over it are planned. -/
structure Planner where
  model : Model
  extensions : Extensions

/-- A joined source and its condition. -/
structure LoweredJoin where
  source : Source
  on : RelExpr
  deriving Repr, DecidableEq

/-- A result column with its relational form. -/
structure LoweredColumn where
  expr : RelExpr
  column : ResultColumn
  deriving Repr, DecidableEq

/-- The relational forms of all parts of a query. -/
structure LoweredQuery where
  filters : List LoweredFilter
  joins : List LoweredJoin
  projection : List LoweredColumn
  ordering : List OrderTerm
  deriving Repr, DecidableEq

namespace Planner

/-- Lower one expression of a query. -/
def lower
    (planner : Planner)
    (scope : Scope)
    (e : Expr) :
    Lowering RelExpr :=
  e.lower planner.extensions.lowering scope

/-- Lower a filter and note the searches that this puts on record. -/
def lowerFilter
    (planner : Planner)
    (scope : Scope)
    (predicate : Expr) :
    Lowering LoweredFilter := do
  let before := (← Lowering.searches).length
  let lowered ← planner.lower scope predicate
  return ⟨predicate, lowered, (← Lowering.searches).drop before⟩

/-- Lower a join to an equality of its sides. -/
def lowerJoin
    (planner : Planner)
    (scope : Scope)
    (join : Join) :
    Lowering LoweredJoin := do
  let left ← planner.lower scope join.left
  let right ← planner.lower scope join.right
  return ⟨join.source, .compare left .eq right⟩

/-- Lower a sort key. -/
def lowerSortKey
    (planner : Planner)
    (scope : Scope)
    (key : SortKey) :
    Lowering OrderTerm := do
  return ⟨← planner.lower scope key.expr, key.descending⟩

/-- The columns of the projection that lists every property of an item's entity. -/
def everyProperty
    (item : ScopeItem) :
    List LoweredColumn :=
  item.entity.properties.map fun property =>
    ⟨.member item.tableAlias property.name, ⟨property.name, some property.kind⟩⟩

/--
The name and the kind of a projected expression, given the columns before it.  A
member is named for its property, with the item in front if that name is taken;
anything else is named for its place.
-/
def columnFor
    (scope : Scope)
    (earlier : List LoweredColumn) :
    Expr → Except PlanError ResultColumn
  | .member item property => do
      let found ← scope.item item
      let kind? := (found.entity.property? property).map (·.kind)
      let taken := earlier.any (·.column.name == property)
      return ⟨if taken then item ++ "_" ++ property else property, kind?⟩
  | _ => .ok ⟨"column" ++ Decimal.ofInt (earlier.length + 1), none⟩

/-- Lower projected expressions behind the columns before them. -/
def lowerColumns
    (planner : Planner)
    (scope : Scope)
    (earlier : List LoweredColumn) :
    List Expr → Lowering (List LoweredColumn)
  | [] => pure earlier
  | e :: es => do
      let column ← Lowering.ofExcept ((columnFor scope earlier e).mapError .plan)
      let lowered ← planner.lower scope e
      lowerColumns planner scope (earlier ++ [⟨lowered, column⟩]) es

/-- Lower the projection of a query. -/
def lowerProjection
    (planner : Planner)
    (scope : Scope)
    (query : Query) :
    Lowering (List LoweredColumn) :=
  match query.projection with
  | [] => do
      let root ← Lowering.ofExcept ((scope.item query.source.item).mapError .plan)
      return everyProperty root
  | es => lowerColumns planner scope [] es

/-- Lower all parts of a query. -/
def lowerQuery
    (planner : Planner)
    (scope : Scope)
    (query : Query) :
    Lowering LoweredQuery := do
  let filters ← Lowering.sequence (query.filters.map (planner.lowerFilter scope))
  let inFilters := (← Lowering.searches).length
  let joins ← Lowering.sequence (query.joins.map (planner.lowerJoin scope))
  let projection ← planner.lowerProjection scope query
  let ordering ← Lowering.sequence (query.ordering.map (planner.lowerSortKey scope))
  if (← Lowering.searches).length ≠ inFilters then
    throw (.plan .searchOutsideWhere)
  return { filters, joins, projection, ordering }

end Planner

end FullTextQuery
