import FullTextQuery.Planner.Draft
import FullTextQuery.Proofs.Planner.LoweredQuery
import FullTextQuery.Proofs.Relational.ImageParts

namespace FullTextQuery

/-!
# What the draft of a query is

The statement of a draft is put together from the images of the query's
expressions, and its searches are those of the query's filters.
-/

namespace Query

/-- The projected expressions; an empty projection lists every property of the root. -/
def projected
    (model : Model)
    (query : Query) :
    List Expr :=
  match query.projection with
  | [] =>
      match model.entity? query.source.entity with
      | some root => root.properties.map fun property => .member query.source.item property.name
      | none => []
  | es => es

end Query

namespace Planner

open Lowering

variable {model : Model} {query : Query}

/-- A filter and its image, with what its search calls put on record. -/
structure FilterDrafted
    (model : Model)
    (query : Query)
    (predicate : Expr)
    (filter : LoweredFilter) :
    Prop where
  isFor : filter.predicate = predicate
  image : predicate.image? model query = some filter.lowered
  searches : filter.searches =
    predicate.searchCalls.filterMap (Search.planned? (Scope.declared model query))

/-- A join, the table of its entity and the image of its equality. -/
structure JoinDrafted
    (model : Model)
    (query : Query)
    (join : Join)
    (joined : JoinedTable) :
    Prop where
  table : ∃ entity, model.entity? join.source.entity = some entity ∧
    joined.table = ⟨entity.table, join.source.item⟩
  on : (Expr.compare join.left .eq join.right).image? model query = some joined.on

/-- A sort key and its image. -/
structure SortKeyDrafted
    (model : Model)
    (query : Query)
    (key : SortKey)
    (term : OrderTerm) :
    Prop where
  expr : key.expr.image? model query = some term.expr
  descending : term.descending = key.descending

/-- A result column of a lowered projection, resolved. -/
structure ColumnResolved
    (scope : Scope)
    (column : LoweredColumn)
    (output : OutputColumn) :
    Prop where
  expr : column.expr.resolved? scope = some output.expr
  name : output.name = column.column.name

/-- A projection, its output columns, and the columns of its records. -/
def ProjectionDrafted
    (model : Model)
    (query : Query)
    (outputs : List OutputColumn)
    (columns : List ResultColumn) :
    Prop :=
  ∃ lowered, ProjectionLowered (Scope.declared model query) query lowered ∧
    List.Forall₂ (ColumnResolved (Scope.declared model query)) lowered outputs ∧
    columns = lowered.map (·.column)

/-- A draft is put together from the images of the parts of a query. -/
structure Drafted
    (model : Model)
    (query : Query)
    (draft : Draft) :
    Prop where
  known : ∀ source ∈ query.sources, (model.entity? source.entity).isSome
  distinct : (query.sources.map (·.item)).Nodup
  filters : List.Forall₂ (FilterDrafted model query) query.filters draft.filters
  joins : List.Forall₂ (JoinDrafted model query) query.joins draft.statement.joins
  projection : ProjectionDrafted model query draft.statement.projection draft.columns
  ordering : List.Forall₂ (SortKeyDrafted model query) query.ordering draft.statement.ordering
  source : ∃ root, model.entity? query.source.entity = some root ∧
    draft.statement.source = ⟨root.table, query.source.item⟩
  predicate : draft.statement.predicate? = conjunction? (draft.filters.map (·.lowered))
  limit : draft.statement.limit? = query.limit?
  noOthers : query.otherCalls = []
  searches : ∃ searches,
    PlannedSearches.after? (Scope.declared model query) query.filterCalls {} = some searches ∧
      draft.searches = searches.recorded

/-- A known entity is found. -/
theorem entity_mapError_eq_ok
    {name : String}
    {entity : Entity} :
    (model.entity name).mapError Error.plan = .ok entity ↔ model.entity? name = some entity := by
  unfold Model.entity
  cases model.entity? name <;> simp

section Parts

variable {scope : Scope}

/-- A filter is resolved by resolving its expression. -/
theorem resolveFilter_eq_ok
    {filter result : LoweredFilter} :
    (searching model).resolveFilter scope filter = .ok result ↔
      filter.lowered.resolved? scope = some result.lowered ∧
        result = { filter with lowered := result.lowered } := by
  unfold resolveFilter
  rw [Except.bind_eq_ok]
  constructor
  · rintro ⟨lowered, resolves, ⟨⟩⟩
    exact ⟨RelExpr.resolve_eq_ok.mp resolves, rfl⟩
  · rintro ⟨resolved, same⟩
    exact ⟨_, RelExpr.resolve_eq_ok.mpr resolved, congrArg Except.ok same.symm⟩

/-- A join is resolved to the table of its entity, with its condition resolved. -/
theorem resolveJoin_eq_ok
    {join : LoweredJoin}
    {result : JoinedTable} :
    (searching model).resolveJoin scope join = .ok result ↔
      (∃ entity, model.entity? join.source.entity = some entity ∧
        result.table = ⟨entity.table, join.source.item⟩) ∧
      join.on.resolved? scope = some result.on := by
  unfold resolveJoin
  simp only [Except.bind_eq_ok, entity_mapError_eq_ok]
  constructor
  · rintro ⟨entity, known, on, resolves, ⟨⟩⟩
    exact ⟨⟨entity, known, rfl⟩, RelExpr.resolve_eq_ok.mp resolves⟩
  · rintro ⟨⟨entity, known, table⟩, resolved⟩
    exact ⟨entity, known, _, RelExpr.resolve_eq_ok.mpr resolved, by rw [← table]; rfl⟩

/-- A column is resolved by resolving its expression, under the same name. -/
theorem resolveColumn_eq_ok
    {column : LoweredColumn}
    {result : OutputColumn} :
    (searching model).resolveColumn scope column = .ok result ↔
      ColumnResolved scope column result := by
  unfold resolveColumn
  rw [Except.bind_eq_ok]
  constructor
  · rintro ⟨expr, resolves, ⟨⟩⟩
    exact ⟨RelExpr.resolve_eq_ok.mp resolves, rfl⟩
  · rintro ⟨resolved, name⟩
    exact ⟨_, RelExpr.resolve_eq_ok.mpr resolved, by rw [← name]; rfl⟩

/-- A sort term is resolved by resolving its expression, in the same direction. -/
theorem resolveOrderTerm_eq_ok
    {term result : OrderTerm} :
    (searching model).resolveOrderTerm scope term = .ok result ↔
      term.expr.resolved? scope = some result.expr ∧ result.descending = term.descending := by
  unfold resolveOrderTerm
  rw [Except.bind_eq_ok]
  constructor
  · rintro ⟨expr, resolves, ⟨⟩⟩
    exact ⟨RelExpr.resolve_eq_ok.mp resolves, rfl⟩
  · rintro ⟨resolved, descending⟩
    exact ⟨_, RelExpr.resolve_eq_ok.mpr resolved, by rw [← descending]; rfl⟩

end Parts

section Composition

variable (known : ∀ source ∈ query.sources, (model.entity? source.entity).isSome)

include known

/-- A filter that is lowered and then resolved is drafted, and the other way around. -/
theorem exists_filter_iff
    {predicate : Expr}
    {filter : LoweredFilter} :
    (∃ middle, FilterLowered (Scope.declared model query) predicate middle ∧
      (searching model).resolveFilter (Scope.declared model query) middle = .ok filter) ↔
      FilterDrafted model query predicate filter := by
  simp only [resolveFilter_eq_ok]
  constructor
  · rintro ⟨middle, ⟨rfl, lowered, searches⟩, resolved, same⟩
    rw [same]
    exact ⟨rfl, (Expr.composed known _).mpr ⟨_, lowered, resolved⟩, searches⟩
  · rintro ⟨rfl, image, searches⟩
    obtain ⟨lowered, lowers, resolved⟩ := (Expr.composed known _).mp image
    exact ⟨⟨filter.predicate, lowered, filter.searches⟩, ⟨rfl, lowers, searches⟩, resolved, rfl⟩

/-- A join that is lowered and then resolved is drafted, and the other way around. -/
theorem exists_join_iff
    {join : Join}
    {joined : JoinedTable} :
    (∃ middle, JoinLowered (Scope.declared model query) join middle ∧
      (searching model).resolveJoin (Scope.declared model query) middle = .ok joined) ↔
      JoinDrafted model query join joined := by
  simp only [resolveJoin_eq_ok]
  constructor
  · rintro ⟨middle, ⟨source, on⟩, table, resolved⟩
    exact ⟨source ▸ table, (Expr.composed known _).mpr ⟨_, on, resolved⟩⟩
  · rintro ⟨table, image⟩
    obtain ⟨on, lowers, resolved⟩ := (Expr.composed known _).mp image
    exact ⟨⟨join.source, on⟩, ⟨rfl, lowers⟩, table, resolved⟩

/-- A sort key that is lowered and then resolved is drafted, and the other way around. -/
theorem exists_orderTerm_iff
    {key : SortKey}
    {term : OrderTerm} :
    (∃ middle, SortKeyLowered (Scope.declared model query) key middle ∧
      (searching model).resolveOrderTerm (Scope.declared model query) middle = .ok term) ↔
      SortKeyDrafted model query key term := by
  simp only [resolveOrderTerm_eq_ok]
  constructor
  · rintro ⟨middle, ⟨expr, descending⟩, resolved, same⟩
    exact ⟨(Expr.composed known _).mpr ⟨_, expr, resolved⟩, same.trans descending⟩
  · rintro ⟨image, descending⟩
    obtain ⟨expr, lowers, resolved⟩ := (Expr.composed known _).mp image
    exact ⟨⟨expr, key.descending⟩, ⟨lowers, rfl⟩, resolved, descending⟩

end Composition

/-- The parts of a lowered query that resolution makes a draft of. -/
theorem resolveQuery_eq_ok
    {lowered : LoweredQuery}
    {searches : List PlannedSearch}
    {draft : Draft} :
    (searching model).resolveQuery (Scope.declared model query) query lowered searches =
        .ok draft ↔
      List.Forall₂ (fun middle filter =>
          (searching model).resolveFilter (Scope.declared model query) middle = .ok filter)
        lowered.filters draft.filters ∧
      List.Forall₂ (fun middle joined =>
          (searching model).resolveJoin (Scope.declared model query) middle = .ok joined)
        lowered.joins draft.statement.joins ∧
      List.Forall₂ (ColumnResolved (Scope.declared model query))
        lowered.projection draft.statement.projection ∧
      List.Forall₂ (fun middle term =>
          (searching model).resolveOrderTerm (Scope.declared model query) middle = .ok term)
        lowered.ordering draft.statement.ordering ∧
      (∃ root, model.entity? query.source.entity = some root ∧
        draft.statement.source = ⟨root.table, query.source.item⟩) ∧
      draft.statement.predicate? = conjunction? (draft.filters.map (·.lowered)) ∧
      draft.statement.limit? = query.limit? ∧
      draft.columns = lowered.projection.map (·.column) ∧
      draft.searches = searches := by
  simp only [resolveQuery, Except.bind_eq_ok, Except.mapM_eq_ok, entity_mapError_eq_ok,
    resolveColumn_eq_ok]
  constructor
  · rintro ⟨filters, filtersResolved, joins, joinsResolved, projection, projectionResolved,
      ordering, orderingResolved, root, isRoot, ⟨⟩⟩
    exact ⟨filtersResolved, joinsResolved, projectionResolved, orderingResolved,
      ⟨root, isRoot, rfl⟩, rfl, rfl, rfl, rfl⟩
  · rintro ⟨filtersResolved, joinsResolved, projectionResolved, orderingResolved,
      ⟨root, isRoot, source⟩, predicate, limit, columns, isSearches⟩
    refine ⟨_, filtersResolved, _, joinsResolved, _, projectionResolved, _, orderingResolved,
      root, isRoot, ?_⟩
    rw [← source, ← predicate, ← limit, ← columns, ← isSearches]
    rfl

/-- A draft is what resolution makes of what lowering yields. -/
theorem draft_eq_bind :
    (searching model).draft query = (do
      let scope ← (Scope.ofQuery model query).mapError .plan
      let lowered ← (runFrom ((searching model).lowerQuery scope query) {}).1
      (searching model).resolveQuery scope query lowered
        (runFrom ((searching model).lowerQuery scope query) {}).2.recorded) :=
  rfl

/-- A query has a draft exactly if one can be put together from the images of its parts. -/
theorem draft_eq_ok
    {draft : Draft} :
    (searching model).draft query = .ok draft ↔ Drafted model query draft := by
  rw [draft_eq_bind]
  simp only [Except.bind_eq_ok, Except.mapError_eq_ok, Scope.ofQuery_eq_ok]
  constructor
  · rintro ⟨_, ⟨known, distinct, rfl⟩, lowered, lowers, resolves⟩
    obtain ⟨⟨filters, joins, projection, ordering⟩, noOthers, recorded⟩ :=
      yields_lowerQuery.mp (Prod.ext lowers rfl)
    obtain ⟨filtersResolved, joinsResolved, projectionResolved, orderingResolved, source,
      predicate, limit, columns, searches⟩ := resolveQuery_eq_ok.mp resolves
    have filtersDrafted := List.forall₂_comp.mp ⟨_, filters, filtersResolved⟩
    have joinsDrafted := List.forall₂_comp.mp ⟨_, joins, joinsResolved⟩
    have orderingDrafted := List.forall₂_comp.mp ⟨_, ordering, orderingResolved⟩
    exact ⟨known, distinct, filtersDrafted.imp fun _ _ => (exists_filter_iff known).mp,
      joinsDrafted.imp fun _ _ => (exists_join_iff known).mp,
      ⟨_, projection, projectionResolved, columns⟩,
      orderingDrafted.imp fun _ _ => (exists_orderTerm_iff known).mp, source, predicate, limit,
      noOthers, _, recorded, searches⟩
  · rintro ⟨known, distinct, filtersDrafted, joinsDrafted, ⟨columns, projection,
      projectionResolved, isColumns⟩, orderingDrafted, source, predicate, limit, noOthers,
      searches, recorded, isSearches⟩
    obtain ⟨filters, filtersLowered, filtersResolved⟩ := List.forall₂_comp.mpr
      (filtersDrafted.imp fun _ _ => (exists_filter_iff known).mpr)
    obtain ⟨joins, joinsLowered, joinsResolved⟩ := List.forall₂_comp.mpr
      (joinsDrafted.imp fun _ _ => (exists_join_iff known).mpr)
    obtain ⟨terms, orderingLowered, orderingResolved⟩ := List.forall₂_comp.mpr
      (orderingDrafted.imp fun _ _ => (exists_orderTerm_iff known).mpr)
    have lowers : runFrom ((searching model).lowerQuery (Scope.declared model query) query) {} =
        (.ok ⟨filters, joins, columns, terms⟩, searches) :=
      yields_lowerQuery.mpr ⟨⟨filtersLowered, joinsLowered, projection, orderingLowered⟩,
        noOthers, recorded⟩
    refine ⟨_, ⟨known, distinct, rfl⟩, ⟨filters, joins, columns, terms⟩, by rw [lowers], ?_⟩
    rw [lowers]
    exact resolveQuery_eq_ok.mpr ⟨filtersResolved, joinsResolved, projectionResolved,
      orderingResolved, source, predicate, limit, isColumns, isSearches⟩

end Planner

end FullTextQuery
