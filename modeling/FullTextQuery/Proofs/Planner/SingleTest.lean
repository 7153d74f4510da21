import Mathlib.Algebra.Order.BigOperators.Group.List
import Mathlib.Algebra.Order.Group.Nat
import FullTextQuery.Proofs.Plan.ValueSets
import FullTextQuery.Proofs.Planner.Statement
import FullTextQuery.Proofs.Relational.Accounting

namespace FullTextQuery

/-!
# How many membership tests a statement has

The last check of planning counts the membership tests in the predicate.  Those
of the projection, the joins and the sort terms are kept out by another check,
which counts searches on record.  So a plan has a single test at most if its
rules put a search on record for each test.  A rule that does not can bring a
second test into the projection.
-/

/-- Whether all rules account for their membership tests. -/
structure Extensions.Accounts
    (extensions : Extensions) :
    Prop where
  lowering : ∀ rule ∈ extensions.lowering, rule.Accounts
  resolution : ∀ rule ∈ extensions.resolution, rule.KeepsTests

/-- The standard extensions account for their membership tests. -/
theorem Extensions.accounts_search :
    Extensions.search.Accounts where
  lowering := by
    simpa [Extensions.search] using Search.accounts_lowerCall
  resolution := by
    simpa [Extensions.search] using Search.keepsTests_keepMembership

namespace LoweredQuery

/-- The number of membership tests that are not in a filter. -/
def testsOutside
    (lowered : LoweredQuery) :
    Nat :=
  (lowered.joins.map fun join => join.on.testCount).sum
    + (lowered.projection.map fun column => column.expr.testCount).sum
    + (lowered.ordering.map fun term => term.expr.testCount).sum

end LoweredQuery

namespace Planner

open Lowering

variable {planner : Planner} {query : Query}

section Lowering

variable (accounts : planner.extensions.Accounts) (scope : Scope)

include accounts

/-- The membership tests of a lowered expression are accounted for by recorded searches. -/
theorem accounts_lower
    (e : Expr) :
    Accounts 0 RelExpr.testCount (planner.lower scope e) :=
  Expr.accounts_lower accounts.lowering e

/-- The membership tests of a lowered join are accounted for by recorded searches. -/
theorem accounts_lowerJoin
    (join : Join) :
    Accounts 0 (fun lowered : LoweredJoin => lowered.on.testCount)
      (planner.lowerJoin scope join) := by
  refine (accounts_lower accounts scope join.left).bind fun left => ?_
  exact ((accounts_lower accounts scope join.right).behind left.testCount).bind fun right =>
    .pure (by simp)

/-- The membership tests of a lowered sort key are accounted for by recorded searches. -/
theorem accounts_lowerSortKey
    (key : SortKey) :
    Accounts 0 (fun term : OrderTerm => term.expr.testCount)
      (planner.lowerSortKey scope key) :=
  (accounts_lower accounts scope key.expr).bind fun _ => .pure (Nat.le_refl _)

/-- Projected expressions account for their tests beside those of the columns before them. -/
theorem accounts_lowerColumns
    (earlier : List LoweredColumn)
    (es : List Expr) :
    Accounts (earlier.map fun column => column.expr.testCount).sum
      (fun columns => (columns.map fun column => column.expr.testCount).sum)
      (planner.lowerColumns scope earlier es) := by
  induction es generalizing earlier with
  | nil =>
      exact .pure (Nat.le_refl _)
  | cons e rest inductionHypothesis =>
      refine .ofExcept_bind fun column => ?_
      refine ((accounts_lower accounts scope e).behind _).bind fun lowered => ?_
      have rest := inductionHypothesis (earlier ++ [⟨lowered, column⟩])
      rw [List.map_append, List.sum_append] at rest
      simpa using rest

/-- The membership tests of lowered columns are accounted for by recorded searches. -/
theorem accounts_lowerProjection :
    Accounts 0 (fun columns => (columns.map fun column => column.expr.testCount).sum)
      (planner.lowerProjection scope query) := by
  unfold lowerProjection
  split
  · exact .ofExcept_bind fun root => .pure (by simp [everyProperty, Function.comp_def])
  · exact accounts_lowerColumns accounts scope [] _

/-- Where all tests are accounted for, only the filters have some. -/
theorem testsOutside_eq_zero
    {before after : PlannedSearches}
    {lowered : LoweredQuery}
    (yields : Yields (planner.lowerQuery scope query) before lowered after) :
    lowered.testsOutside = 0 := by
  simp only [lowerQuery, yields_bind, yields_searches] at yields
  obtain ⟨filters, inFilters, -, _, _, ⟨rfl, rfl⟩, joins, afterJoins, joinsYield, projection,
    afterProjection, projectionYields, ordering, afterOrdering, orderingYields, _, _, ⟨rfl, rfl⟩,
    finished⟩ := yields
  have joinsCount := Accounts.sequence (fun lowered : LoweredJoin => lowered.on.testCount)
    (by simpa using fun join _ => accounts_lowerJoin accounts scope join) _ _ _ joinsYield
  have projectionCount := accounts_lowerProjection accounts scope _ _ _ projectionYields
  have orderingCount := Accounts.sequence (fun term : OrderTerm => term.expr.testCount)
    (by simpa using fun key _ => accounts_lowerSortKey accounts scope key) _ _ _ orderingYields
  split at finished
  · exact absurd finished (by simp [not_yields_throw])
  · rename_i sameLength
    obtain ⟨rfl, rfl⟩ := yields_pure.mp finished
    simp only [Nat.add_zero] at joinsCount projectionCount orderingCount
    simp only [LoweredQuery.testsOutside]
    omega

end Lowering

section Resolution

variable {scope : Scope}

/-- Parts that are resolved one by one without more tests have no more of them together. -/
theorem sum_testCount_mapM_le
    {resolvePart : α → Except Error β}
    {before : α → Nat}
    {after : β → Nat}
    (each : ∀ part result, resolvePart part = .ok result → after result ≤ before part)
    {parts : List α}
    {results : List β}
    (resolves : parts.mapM resolvePart = .ok results) :
    (results.map after).sum ≤ (parts.map before).sum := by
  refine List.Forall₂.sum_le_sum ?_
  rw [List.forall₂_map_left_iff, List.forall₂_map_right_iff]
  exact (Except.mapM_eq_ok.mp resolves).flip.imp fun result part => each part result

variable (accounts : planner.extensions.Accounts)

include accounts

/-- Resolution adds no membership test. -/
theorem testCount_resolve_le
    {e result : RelExpr}
    (resolves : planner.resolve scope e = .ok result) :
    result.testCount ≤ e.testCount :=
  RelExpr.testCount_resolve_le accounts.resolution e result resolves

/-- Outside of its predicate, a resolved statement has the tests of the lowered query at most. -/
theorem testCount_resolveQuery_le
    {lowered : LoweredQuery}
    {searches : List PlannedSearch}
    {draft : Draft}
    (resolves : planner.resolveQuery scope query lowered searches = .ok draft) :
    draft.statement.memberships.length ≤
      (draft.statement.predicate?.toList.flatMap RelExpr.memberships).length
        + lowered.testsOutside := by
  simp only [resolveQuery, Except.bind_eq_ok] at resolves
  obtain ⟨filters, _, joins, joinsResolved, projection, projectionResolved, ordering,
    orderingResolved, _, _, ⟨⟩⟩ := resolves
  have joinsCount : (joins.map fun joined => joined.on.testCount).sum ≤
      (lowered.joins.map fun join => join.on.testCount).sum := by
    refine sum_testCount_mapM_le (fun join joined resolves => ?_) joinsResolved
    simp only [resolveJoin, Except.bind_eq_ok] at resolves
    obtain ⟨_, _, on, onResolves, ⟨⟩⟩ := resolves
    exact testCount_resolve_le accounts onResolves
  have projectionCount : (projection.map fun output => output.expr.testCount).sum ≤
      (lowered.projection.map fun column => column.expr.testCount).sum := by
    refine sum_testCount_mapM_le (fun column output resolves => ?_) projectionResolved
    simp only [resolveColumn, Except.bind_eq_ok] at resolves
    obtain ⟨_, exprResolves, ⟨⟩⟩ := resolves
    exact testCount_resolve_le accounts exprResolves
  have orderingCount : (ordering.map fun term => term.expr.testCount).sum ≤
      (lowered.ordering.map fun term => term.expr.testCount).sum := by
    refine sum_testCount_mapM_le (fun term result resolves => ?_) orderingResolved
    simp only [resolveOrderTerm, Except.bind_eq_ok] at resolves
    obtain ⟨_, exprResolves, ⟨⟩⟩ := resolves
    exact testCount_resolve_le accounts exprResolves
  simp only [Statement.memberships, Statement.expressions, List.flatMap_append, List.flatMap_map,
    List.length_append, LoweredQuery.testsOutside]
  simp only [List.length_flatMap]
  simp only [RelExpr.testCount] at joinsCount projectionCount orderingCount ⊢
  omega

end Resolution

/-- Where all tests are accounted for, a draft has them in its predicate only. -/
theorem length_memberships_draft_le
    (accounts : planner.extensions.Accounts)
    {draft : Draft}
    (drafted : planner.draft query = .ok draft) :
    draft.statement.memberships.length ≤
      (draft.statement.predicate?.toList.flatMap RelExpr.memberships).length := by
  have parts : planner.draft query = (do
      let scope ← (Scope.ofQuery planner.model query).mapError .plan
      let lowered ← (runFrom (planner.lowerQuery scope query) {}).1
      planner.resolveQuery scope query lowered
        (runFrom (planner.lowerQuery scope query) {}).2.recorded) :=
    rfl
  simp only [parts, Except.bind_eq_ok] at drafted
  obtain ⟨scope, _, lowered, lowers, resolves⟩ := drafted
  have noneOutside := testsOutside_eq_zero accounts scope (Prod.ext lowers rfl)
  simpa [noneOutside] using testCount_resolveQuery_le accounts resolves

/--
A plan is made of a draft with one membership test in its predicate at most.
If all rules account for their tests, the whole statement has no further one.
-/
theorem exists_draft_with_one_test
    {plan : QueryPlan}
    (planned : planner.plan query = .ok plan) :
    ∃ draft, planner.draft query = .ok draft ∧
      (draft.statement.predicate?.toList.flatMap RelExpr.memberships).length ≤ 1 ∧
      (planner.extensions.Accounts → draft.statement.memberships.length ≤ 1) := by
  obtain ⟨draft, drafted, passed⟩ := exists_draft_of_plan planned
  have inPredicate := (Steps.of_checkValueSets passed).1
  exact ⟨draft, drafted, inPredicate, fun accounts =>
    (length_memberships_draft_le accounts drafted).trans inPredicate⟩

/-- The search extension alone accounts for its tests. -/
theorem exists_draft_with_one_test_ordersOfFound :
    ∃ draft, (searching .shop).draft .ordersOfFound = .ok draft ∧
      draft.statement.memberships.length ≤ 1 := by
  have isPlanned : ((searching .shop).plan .ordersOfFound).toOption.isSome := by
    decide +kernel
  obtain ⟨plan, planned⟩ := Except.exists_eq_ok_iff.mpr isPlanned
  obtain ⟨draft, drafted, _, inStatement⟩ := exists_draft_with_one_test planned
  exact ⟨draft, drafted, inStatement Extensions.accounts_search⟩

/-- A rule that puts nothing on record brings a second test into a planned statement. -/
theorem exists_plan_with_two_tests :
    ∃ plan draft, searchingAmong.plan .foundAmong = .ok plan ∧
      searchingAmong.draft .foundAmong = .ok draft ∧
      draft.statement.memberships.length = 2 := by
  obtain ⟨plan, planned⟩ := exists_plan_foundAmong
  obtain ⟨draft, drafted, _⟩ := exists_draft_of_plan planned
  have count : (searchingAmong.draft .foundAmong).toOption.any
      (fun draft => draft.statement.memberships.length = 2) := by
    decide +kernel
  rw [drafted] at count
  exact ⟨plan, draft, planned, drafted, by simpa using count⟩

end Planner

end FullTextQuery
