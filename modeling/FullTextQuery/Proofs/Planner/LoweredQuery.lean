import FullTextQuery.Planner.Basic
import FullTextQuery.Proofs.Relational.Lowering

namespace FullTextQuery

/-!
# What lowering makes of a query

Every part of a query is lowered on its own.  Only the search calls have an
effect beyond their part, and those outside the filters are refused.
-/

namespace PlannedSearches

variable {scope : Scope} {before after : PlannedSearches}

/-- What search calls add to the record. -/
theorem recorded_of_after?
    {calls : List (String × Expr.SearchPhrase)}
    (recorded : after? scope calls before = some after) :
    after.recorded = before.recorded ++ calls.filterMap (Search.planned? scope) ∧
      ∀ call ∈ calls, (Search.planned? scope call).isSome := by
  induction calls generalizing before with
  | nil =>
      obtain rfl : before = after := by simpa using recorded
      simp
  | cons call rest inductionHypothesis =>
      obtain ⟨between, callRecorded, restRecorded⟩ :=
        Option.bind_eq_some_iff.mp (by simpa [after?] using recorded)
      obtain ⟨restAdded, restPlanned⟩ := inductionHypothesis restRecorded
      unfold afterCall? at callRecorded
      split at callRecorded
      · rename_i isEmpty
        obtain ⟨search, planned, rfl⟩ := Option.map_eq_some_iff.mp callRecorded
        rw [restAdded, isEmpty]
        exact ⟨by simp [planned], List.forall_mem_cons.mpr ⟨by simp [planned], restPlanned⟩⟩
      · simp at callRecorded

/-- Search calls leave the number of searches as it is only if there are none. -/
theorem length_eq_of_after?
    {calls : List (String × Expr.SearchPhrase)}
    (recorded : after? scope calls before = some after) :
    after.recorded.length = before.recorded.length ↔ calls = [] := by
  obtain ⟨added, planned⟩ := recorded_of_after? recorded
  rw [added, List.length_append]
  constructor
  · intro sameLength
    match calls with
    | [] => rfl
    | call :: rest =>
        obtain ⟨search, isPlanned⟩ := Option.isSome_iff_exists.mp (planned call (by simp))
        simp [isPlanned] at sameLength
  · rintro rfl
    simp

end PlannedSearches

namespace Planner

open PlannedSearches Lowering

/-- The planner over a model with the search extension. -/
abbrev searching
    (model : Model) :
    Planner :=
  ⟨model, .search⟩

section Parts

/-- A filter, its lowered form, and what its search calls put on record. -/
structure FilterLowered
    (scope : Scope)
    (predicate : Expr)
    (filter : LoweredFilter) :
    Prop where
  isFor : filter.predicate = predicate
  lowered : predicate.lowered? scope = some filter.lowered
  searches : filter.searches = predicate.searchCalls.filterMap (Search.planned? scope)

/-- A join and the equality of the lowered forms of its sides. -/
structure JoinLowered
    (scope : Scope)
    (join : Join)
    (result : LoweredJoin) :
    Prop where
  source : result.source = join.source
  on : (Expr.compare join.left .eq join.right).lowered? scope = some result.on

/-- A sort key and its term. -/
structure SortKeyLowered
    (scope : Scope)
    (key : SortKey)
    (term : OrderTerm) :
    Prop where
  expr : key.expr.lowered? scope = some term.expr
  descending : term.descending = key.descending

/-- Projected expressions and their columns, behind earlier ones. -/
def ColumnsLowered
    (scope : Scope)
    (earlier : List LoweredColumn) :
    List Expr → List LoweredColumn → Prop
  | [], columns => columns = earlier
  | e :: es, columns =>
      ∃ column lowered, columnFor scope earlier e = .ok column ∧
        e.lowered? scope = some lowered ∧
        ColumnsLowered scope (earlier ++ [⟨lowered, column⟩]) es columns

/-- The projection of a query and its columns. -/
def ProjectionLowered
    (scope : Scope)
    (query : Query)
    (columns : List LoweredColumn) :
    Prop :=
  match query.projection with
  | [] => ∃ root, scope.items.get? query.source.item = some root ∧ columns = everyProperty root
  | es => ColumnsLowered scope [] es columns

end Parts

variable {model : Model} {scope : Scope} {before after : PlannedSearches}

/-- A filter is lowered with its expression, and records the searches in it. -/
theorem yields_lowerFilter
    (predicate : Expr)
    {filter : LoweredFilter}
    (regular : before.Regular) :
    Yields ((searching model).lowerFilter scope predicate) before filter after ↔
      FilterLowered scope predicate filter ∧
        after? scope predicate.searchCalls before = some after := by
  simp only [lowerFilter, yields_bind, yields_searches, yields_pure]
  constructor
  · rintro ⟨_, _, ⟨rfl, rfl⟩, lowered, between, lowers, _, _, ⟨rfl, rfl⟩, rfl, rfl⟩
    obtain ⟨isLowered, recorded⟩ := (faithful scope predicate regular).mp lowers
    refine ⟨⟨rfl, isLowered, ?_⟩, recorded⟩
    simp [(recorded_of_after? recorded).1]
  · rintro ⟨⟨rfl, lowered, searches⟩, recorded⟩
    refine ⟨_, _, ⟨rfl, rfl⟩, filter.lowered, after,
      (faithful scope _ regular).mpr ⟨lowered, recorded⟩, _, _, ⟨rfl, rfl⟩, ?_, rfl⟩
    simp [(recorded_of_after? recorded).1, ← searches]

/-- A join is lowered as an equality, and records the searches on its left side first. -/
theorem yields_lowerJoin
    (join : Join)
    {result : LoweredJoin}
    (regular : before.Regular) :
    Yields ((searching model).lowerJoin scope join) before result after ↔
      JoinLowered scope join result ∧
        after? scope (join.left.searchCalls ++ join.right.searchCalls) before = some after := by
  have both : Yields _ before result.on after ↔ _ :=
    Faithful.both (.compare · .eq ·) (faithful scope join.left) (faithful scope join.right)
      regular
  simp only [yields_bind, yields_pure] at both
  simp only [lowerJoin, yields_bind, yields_pure]
  constructor
  · rintro ⟨l, between, leftLowers, r, _, rightLowers, rfl, rfl⟩
    obtain ⟨on, recorded⟩ := both.mp ⟨l, between, leftLowers, r, _, rightLowers, rfl, rfl⟩
    exact ⟨⟨rfl, on⟩, recorded⟩
  · rintro ⟨⟨source, on⟩, recorded⟩
    obtain ⟨l, between, leftLowers, r, _, rightLowers, same, rfl⟩ := both.mpr ⟨on, recorded⟩
    exact ⟨l, between, leftLowers, r, _, rightLowers, by rw [← source, ← same], rfl⟩

/-- A sort key is lowered with its expression, and records the searches in it. -/
theorem yields_lowerSortKey
    (key : SortKey)
    {term : OrderTerm}
    (regular : before.Regular) :
    Yields ((searching model).lowerSortKey scope key) before term after ↔
      SortKeyLowered scope key term ∧
        after? scope key.expr.searchCalls before = some after := by
  simp only [lowerSortKey, yields_bind, yields_pure]
  constructor
  · rintro ⟨lowered, between, lowers, rfl, rfl⟩
    obtain ⟨isLowered, recorded⟩ := (faithful scope key.expr regular).mp lowers
    exact ⟨⟨isLowered, rfl⟩, recorded⟩
  · rintro ⟨⟨lowered, descending⟩, recorded⟩
    exact ⟨_, _, (faithful scope key.expr regular).mpr ⟨lowered, recorded⟩,
      by rw [← descending], rfl⟩

/-- Projected expressions are lowered one after another, each behind the columns before it. -/
theorem yields_lowerColumns
    {earlier columns : List LoweredColumn}
    {es : List Expr}
    (regular : before.Regular) :
    Yields ((searching model).lowerColumns scope earlier es) before columns after ↔
      ColumnsLowered scope earlier es columns ∧
        after? scope (es.flatMap Expr.searchCalls) before = some after := by
  induction es generalizing earlier before with
  | nil =>
      simp [lowerColumns, yields_pure, ColumnsLowered, eq_comm (a := after)]
  | cons e rest inductionHypothesis =>
      simp only [lowerColumns, yields_bind, yields_ofExcept, Except.mapError_eq_ok,
        ColumnsLowered, List.flatMap_cons, after?_append, Option.bind_eq_some_iff]
      constructor
      · rintro ⟨column, _, ⟨isColumn, rfl⟩, lowered, between, lowers, restLowers⟩
        obtain ⟨isLowered, recorded⟩ := (faithful scope e regular).mp lowers
        obtain ⟨restLowered, restRecorded⟩ :=
          (inductionHypothesis (regular.after? recorded)).mp restLowers
        exact ⟨⟨column, lowered, isColumn, isLowered, restLowered⟩, between, recorded,
          restRecorded⟩
      · rintro ⟨⟨column, lowered, isColumn, isLowered, restLowered⟩, between, recorded,
          restRecorded⟩
        exact ⟨column, _, ⟨isColumn, rfl⟩, lowered, between,
          (faithful scope e regular).mpr ⟨isLowered, recorded⟩,
          (inductionHypothesis (regular.after? recorded)).mpr ⟨restLowered, restRecorded⟩⟩

/-- A projection is lowered column by column, and records the searches in their order. -/
theorem yields_lowerProjection
    {query : Query}
    {columns : List LoweredColumn}
    (regular : before.Regular) :
    Yields ((searching model).lowerProjection scope query) before columns after ↔
      ProjectionLowered scope query columns ∧
        after? scope (query.projection.flatMap Expr.searchCalls) before = some after := by
  unfold lowerProjection ProjectionLowered
  cases query.projection with
  | nil =>
      simp only [yields_bind, yields_ofExcept, item_mapError_eq_ok, yields_pure,
        List.flatMap_nil, after?_nil]
      grind
  | cons e rest =>
      exact yields_lowerColumns regular

/-- A query and the lowered forms of its parts. -/
structure QueryLowered
    (scope : Scope)
    (query : Query)
    (result : LoweredQuery) :
    Prop where
  filters : List.Forall₂ (FilterLowered scope) query.filters result.filters
  joins : List.Forall₂ (JoinLowered scope) query.joins result.joins
  projection : ProjectionLowered scope query result.projection
  ordering : List.Forall₂ (SortKeyLowered scope) query.ordering result.ordering

/--
A query is lowered part by part.  Only its filters have search calls, and
these are what is on record in the end.
-/
theorem yields_lowerQuery
    {query : Query}
    {result : LoweredQuery} :
    Yields ((searching model).lowerQuery scope query) {} result after ↔
      QueryLowered scope query result ∧ query.otherCalls = [] ∧
        after? scope query.filterCalls {} = some after := by
  have filtersYield : ∀ {filters between}, Yields (Lowering.sequence
        (query.filters.map ((searching model).lowerFilter scope))) {} filters between ↔
      List.Forall₂ (FilterLowered scope) query.filters filters ∧
        after? scope query.filterCalls {} = some between :=
    yields_sequence (fun predicate _ _ _ _ => yields_lowerFilter predicate) (.inl rfl)
  have joinsYield : ∀ {start joins between}, start.Regular → (Yields (Lowering.sequence
        (query.joins.map ((searching model).lowerJoin scope))) start joins between ↔
      List.Forall₂ (JoinLowered scope) query.joins joins ∧
        after? scope (query.joins.flatMap fun join =>
          join.left.searchCalls ++ join.right.searchCalls) start = some between) :=
    fun regular => yields_sequence (fun join _ _ _ _ => yields_lowerJoin join) regular
  have orderingYields : ∀ {start terms between}, start.Regular → (Yields (Lowering.sequence
        (query.ordering.map ((searching model).lowerSortKey scope))) start terms between ↔
      List.Forall₂ (SortKeyLowered scope) query.ordering terms ∧
        after? scope (query.ordering.flatMap fun key => key.expr.searchCalls) start =
          some between) :=
    fun regular => yields_sequence (fun key _ _ _ _ => yields_lowerSortKey key) regular
  simp only [lowerQuery, yields_bind, yields_searches, filtersYield]
  constructor
  · rintro ⟨filters, _, ⟨filtersLowered, filtersRecorded⟩, _, inFilters, ⟨rfl, rfl⟩, joins, _,
      joinsLower, projection, _, projectionLowers, ordering, _, orderingLowers, _, last,
      ⟨rfl, rfl⟩, finished⟩
    have regular : inFilters.Regular := Regular.after? (.inl rfl) filtersRecorded
    obtain ⟨joinsLowered, joinsRecorded⟩ := (joinsYield regular).mp joinsLower
    obtain ⟨projectionLowered, projectionRecorded⟩ :=
      (yields_lowerProjection (regular.after? joinsRecorded)).mp projectionLowers
    obtain ⟨orderingLowered, orderingRecorded⟩ :=
      (orderingYields ((regular.after? joinsRecorded).after? projectionRecorded)).mp
        orderingLowers
    have othersRecorded : after? scope query.otherCalls inFilters = some last := by
      simp only [Query.otherCalls, after?_append, joinsRecorded, Option.bind_some,
        projectionRecorded, orderingRecorded]
    split at finished
    · exact absurd finished (by simp [not_yields_throw])
    · rename_i sameLength
      have noOthers : query.otherCalls = [] :=
        (length_eq_of_after? othersRecorded).mp (not_not.mp sameLength)
      obtain rfl : inFilters = last := by simpa [noOthers] using othersRecorded
      obtain ⟨rfl, rfl⟩ := yields_pure.mp finished
      exact ⟨⟨filtersLowered, joinsLowered, projectionLowered, orderingLowered⟩, noOthers,
        filtersRecorded⟩
  · rintro ⟨⟨filtersLowered, joinsLowered, projectionLowered, orderingLowered⟩, noOthers,
      filtersRecorded⟩
    have regular : after.Regular := Regular.after? (.inl rfl) filtersRecorded
    simp only [Query.otherCalls, List.append_eq_nil_iff] at noOthers
    obtain ⟨⟨noJoins, noProjection⟩, noOrdering⟩ := noOthers
    refine ⟨_, after, ⟨filtersLowered, filtersRecorded⟩, _, _, ⟨rfl, rfl⟩,
      _, after, (joinsYield regular).mpr ⟨joinsLowered, by simp [noJoins]⟩,
      _, after, (yields_lowerProjection regular).mpr ⟨projectionLowered, by simp [noProjection]⟩,
      _, after, (orderingYields regular).mpr ⟨orderingLowered, by simp [noOrdering]⟩,
      _, _, ⟨rfl, rfl⟩, ?_⟩
    rw [if_neg (by simp)]
    exact yields_pure.mpr ⟨rfl, rfl⟩

section Failure

variable
  (checked : ∀ {item found}, scope.items.get? item = some found → found.entity.check = .ok ())

include checked

/-- Lowering columns fails with plan errors only. -/
theorem failsOnlyBy_lowerColumns
    (earlier : List LoweredColumn)
    (es : List Expr) :
    FailsOnlyBy Error.IsPlan ((searching model).lowerColumns scope earlier es) := by
  induction es generalizing earlier with
  | nil =>
      exact .pure _
  | cons e rest inductionHypothesis =>
      refine .bind (.ofExcept (Error.failsOnlyBy_mapError_plan _)) fun column => ?_
      refine .bind (failsOnlyBy_lower checked e) fun lowered => ?_
      exact inductionHypothesis _

/-- Lowering a projection fails with plan errors only. -/
theorem failsOnlyBy_lowerProjection
    (query : Query) :
    FailsOnlyBy Error.IsPlan ((searching model).lowerProjection scope query) := by
  unfold lowerProjection
  split
  · exact .bind (.ofExcept (Error.failsOnlyBy_mapError_plan _)) fun _ => .pure _
  · exact failsOnlyBy_lowerColumns checked [] _

/-- A query fails to be lowered only for a reason of planning. -/
theorem failsOnlyBy_lowerQuery
    (query : Query) :
    FailsOnlyBy Error.IsPlan ((searching model).lowerQuery scope query) := by
  have lowerFails : ∀ e, FailsOnlyBy Error.IsPlan ((searching model).lower scope e) :=
    failsOnlyBy_lower checked
  refine .bind (.sequence ?filters) fun filters => .bind .searches fun _ =>
    .bind (.sequence ?joins) fun joins => .bind (failsOnlyBy_lowerProjection checked query)
      fun projection => .bind (.sequence ?ordering) fun ordering => .bind .searches fun _ => ?_
  case filters =>
    simp only [List.forall_mem_map]
    intro predicate _
    exact .bind .searches fun _ => .bind (lowerFails predicate) fun _ =>
      .bind .searches fun _ => .pure _
  case joins =>
    simp only [List.forall_mem_map]
    intro join _
    exact .bind (lowerFails join.left) fun _ => .bind (lowerFails join.right) fun _ => .pure _
  case ordering =>
    simp only [List.forall_mem_map]
    intro key _
    exact .bind (lowerFails key.expr) fun _ => .pure _
  split
  · exact .bind (.throw ⟨_, rfl⟩) fun _ => .pure _
  · exact .pure _

end Failure

end Planner

end FullTextQuery
