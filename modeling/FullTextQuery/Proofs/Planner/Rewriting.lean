import FullTextQuery.Proofs.Planner.Plan

namespace FullTextQuery

/-!
# Search calls become searches

The plan of a query filters by the images of its filters.  Without a search
call it runs the statement only.  With one, the membership test in the
statement, the parameter that it reads, the search of the plan and its first
step all belong to this one call.
-/

namespace Query

/-- Whether a filter asks for a full-text search. -/
def SearchesInFilter
    (query : Query) :
    Prop :=
  ∃ predicate ∈ query.filters, predicate.searchCalls ≠ []

/-- A query searches in its filters if there is a search call in one. -/
theorem searchesInFilter_iff
    {query : Query} :
    query.SearchesInFilter ↔ query.filterCalls ≠ [] := by
  simp only [SearchesInFilter, filterCalls, ne_eq, List.flatMap_eq_nil_iff, not_forall,
    exists_prop]

end Query

namespace Planner

open Sql

/-- A plan that runs a statement without value sets. -/
structure WithoutSearch
    (draft : Draft)
    (plan : QueryPlan) :
    Prop where
  searches : plan.searches = []
  memberships : draft.statement.memberships = []
  parameters : ∀ parameter ∈ plan.parameters, parameter.supplier = .caller
  steps : plan.steps = .rowsOnly plan.steps.rowStep

/-- A plan whose search, membership test and value set are those of one search call. -/
structure BySearch
    (model : Model)
    (query : Query)
    (draft : Draft)
    (plan : QueryPlan)
    (source : String)
    (phrase : Expr.SearchPhrase)
    (entity : Entity)
    (key : Property)
    (search : PlannedSearch) :
    Prop where
  call : query.filterCalls = [(source, phrase)]
  ranges : query.entityOf? model source = some entity
  primaryKey : entity.primaryKey = [key.name] ∧ entity.property? key.name = some key
  searches : plan.searches = [search]
  index : entity.searchIndex? = some search.index
  asks : search.phrase = phrase
  keyKind : search.keyKind = key.kind
  memberships : draft.statement.memberships =
    [⟨.column source key.column, search.parameter, search.id⟩]
  parameters : plan.parameters.filter (·.supplier = .search) = [⟨search.parameter, .search⟩]
  steps : plan.steps = .searchThenRows (.ofSearch search) plan.steps.rowStep

/-- What a plan has to do with its query, by way of the statement that it runs. -/
structure Rewritten
    (model : Model)
    (query : Query)
    (draft : Draft)
    (plan : QueryPlan) :
    Prop where
  drafted : (searching model).draft query = .ok draft
  written : draft.statement.write = .ok ⟨plan.sql, plan.parameters⟩
  predicate : ∃ images,
    List.Forall₂ (fun predicate image => predicate.image? model query = some image)
      query.filters images ∧
    draft.statement.predicate? = conjunction? images
  withoutSearch : ¬ query.SearchesInFilter → WithoutSearch draft plan
  bySearch : query.SearchesInFilter → ∃ source phrase entity key search,
    BySearch model query draft plan source phrase entity key search

/-- Every plan filters by the images of the filters, and searches for their search call. -/
theorem exists_rewritten_of_plan
    {model : Model}
    {query : Query}
    {plan : QueryPlan}
    (planned : (searching model).plan query = .ok plan) :
    ∃ draft, Rewritten model query draft plan := by
  obtain ⟨draft, parameters, drafted, listed, rfl⟩ := plan_eq_ok.mp planned
  have rowStep : (steps draft parameters).rowStep = rows draft parameters := by
    unfold steps
    cases draft.searches <;> rfl
  refine ⟨draft, draft_eq_ok.mpr drafted, ?written,
    ⟨_, drafted.filterImages, drafted.predicate⟩, ?withoutSearch, ?bySearch⟩
  case written =>
    rw [Statement.write_eq drafted.resolved, listed]
    simp [QueryPlan.sql, QueryPlan.parameters, rowStep, rows, Except.map]
  case withoutSearch =>
    intro noSearch
    rw [Query.searchesInFilter_iff, not_not] at noSearch
    rcases drafted.search_cases with ⟨_, noSearches, noTests⟩ | ⟨call, _, _, isCall, _⟩
    · refine ⟨noSearches, noTests, ?_, ?_⟩
      · rintro ⟨name, supplier⟩ isListed
        simp only [QueryPlan.parameters, rowStep, rows] at isListed
        cases supplier with
        | caller => rfl
        | search =>
            exact absurd noSearches ((drafted.search_mem_parameters listed).mp isListed).2
      · simp [steps, noSearches, Steps.rowStep]
    · simp [isCall] at noSearch
  case bySearch =>
    intro searches
    rw [Query.searchesInFilter_iff] at searches
    rcases drafted.search_cases with ⟨noCalls, _, _⟩ |
      ⟨⟨source, phrase⟩, search, test, isCall, planned, isTest, isSearches, isTests⟩
    · exact absurd noCalls searches
    · simp only [Search.planned?, Expr.keyTest?, Option.bind_eq_bind, Option.bind_eq_some_iff,
        Option.pure_def, Option.some.injEq] at planned isTest
      obtain ⟨entity, ranges, ⟨key, index⟩, searchable, rfl⟩ := isTest
      obtain ⟨found, inScope, ⟨_, _⟩, foundSearchable, rfl⟩ := planned
      rw [Scope.get?_declared drafted.known, ranges] at inScope
      obtain rfl := Option.some.inj inScope
      obtain ⟨rfl, rfl⟩ := Prod.mk.inj
        (Option.some.inj (foundSearchable.symm.trans searchable))
      obtain ⟨isKey, has, _, indexed⟩ := Entity.searchable?_eq_some.mp searchable
      refine ⟨source, phrase, entity, _, _, isCall, ranges, ⟨isKey, has⟩, isSearches, indexed,
        rfl, rfl, isTests, ?parameters, ?steps⟩
      case steps =>
        simp [steps, isSearches, Steps.rowStep]
      case parameters =>
        simp only [QueryPlan.parameters, rowStep, rows]
        refine (listUses_eq_ok distinct_nil listed).1.filter_search_eq_singleton fun name => ?_
        rw [drafted.search_mem_parameters listed]
        simp [isSearches]

/-- The orders of the customers that a search finds are rewritten. -/
theorem exists_rewritten_ordersOfFound :
    ∃ draft plan, (searching .shop).plan .ordersOfFound = .ok plan ∧
      Rewritten .shop .ordersOfFound draft plan := by
  have isPlanned : ((searching .shop).plan .ordersOfFound).toOption.isSome := by
    decide +kernel
  cases planned : (searching .shop).plan .ordersOfFound with
  | error e =>
      rw [planned] at isPlanned
      cases isPlanned
  | ok plan =>
      obtain ⟨draft, rewritten⟩ := exists_rewritten_of_plan planned
      exact ⟨draft, plan, rfl, rewritten⟩

end Planner

end FullTextQuery
