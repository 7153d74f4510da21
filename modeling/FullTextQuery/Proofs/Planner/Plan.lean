import FullTextQuery.Planner.Plan
import FullTextQuery.Proofs.Planner.Statement
import FullTextQuery.Proofs.Sql.Parameters

namespace FullTextQuery

/-!
# What the plan of a query is

A query has a plan exactly if it has a draft whose parameters can be listed.
The steps of the plan run the statement of the draft, behind the search of the
draft if there is one; the last checks of planning always pass.
-/

/-- The check passes if there is one test at most, and the search finds all that is read. -/
theorem Steps.checkValueSets_eq_ok
    {steps : Steps}
    {predicate? : Option RelExpr}
    (few : (predicate?.toList.flatMap RelExpr.memberships).length ≤ 1)
    (tested : ∀ test ∈ predicate?.toList.flatMap RelExpr.memberships,
      steps.finds test.parameter = true)
    (read : ∀ parameter ∈ steps.rowStep.parameters, parameter.supplier = .search →
      steps.finds parameter.name = true) :
    steps.checkValueSets predicate? = .ok () := by
  have noneMissing : steps.rowStep.parameters.find? (fun parameter =>
      parameter.supplier == .search && !steps.finds parameter.name) = none := by
    simpa using read
  cases predicate? with
  | none => simp [checkValueSets, noneMissing]
  | some predicate =>
      simp only [Option.toList_some, List.flatMap_singleton] at few tested
      simp only [checkValueSets]
      match isMemberships : predicate.memberships with
      | [] => simp [noneMissing]
      | [test] => simp [noneMissing, tested test (by simp [isMemberships])]
      | _ :: _ :: _ => simp [isMemberships] at few

namespace Planner

open Sql

/-- The row step that runs the statement of a draft. -/
def rows
    (draft : Draft)
    (parameters : List StatementParameter) :
    RowStep :=
  ⟨draft.statement.text, parameters, draft.columns⟩

/-- The steps of a draft: its search, if there is one, and the row step. -/
def steps
    (draft : Draft)
    (parameters : List StatementParameter) :
    Steps :=
  match draft.searches with
  | [] => .rowsOnly (rows draft parameters)
  | search :: _ => .searchThenRows (.ofSearch search) (rows draft parameters)

@[simp] theorem rowStep_steps
    (draft : Draft)
    (parameters : List StatementParameter) :
    (steps draft parameters).rowStep = rows draft parameters := by
  unfold steps
  split <;> rfl

variable {model : Model} {query : Query} {draft : Draft}

/-- Showing filters to the hook that puts searches first goes through all of their searches. -/
theorem showFilters_putFirst
    (place : Nat)
    (filters : List LoweredFilter)
    (steps : Steps) :
    PlanHook.showFilters [Search.putFirst] place filters steps =
      Search.searchFirstFor (filters.flatMap (·.searches)) steps := by
  have through : ∀ (first second : List PlannedSearch) (steps : Steps),
      Search.searchFirstFor (first ++ second) steps =
        Search.searchFirstFor first steps >>= Search.searchFirstFor second := by
    intro first second
    induction first with
    | nil => intro steps; rfl
    | cons search rest inductionHypothesis =>
        intro steps
        simp only [List.cons_append, Search.searchFirstFor]
        split
        · exact inductionHypothesis _
        · rfl
  induction filters generalizing place steps with
  | nil => rfl
  | cons filter rest inductionHypothesis =>
      rw [PlanHook.showFilters, List.flatMap_cons, through]
      simp only [PlanHook.showFilter, Search.putFirst, List.foldlM_cons, List.foldlM_nil,
        bind_pure, inductionHypothesis]

namespace Drafted

variable (drafted : Drafted model query draft)

include drafted

/-- The searches of the filters are those of the draft. -/
theorem flatMap_searches :
    draft.filters.flatMap (·.searches) = draft.searches := by
  obtain ⟨searches, recorded, isSearches⟩ := drafted.searches
  obtain ⟨added, _⟩ := PlannedSearches.recorded_of_after? recorded
  rw [isSearches, added, List.nil_append, Query.filterCalls, List.filterMap_flatMap]
  exact (List.flatMap_eq_of_forall₂
    (drafted.filters.imp fun _ _ filter => filter.searches.symm)).symm

/-- Either no filter has a search call, or there is a single one, with a search and a test. -/
theorem search_cases :
    (query.filterCalls = [] ∧ draft.searches = [] ∧ draft.statement.memberships = []) ∨
      ∃ call search test, query.filterCalls = [call] ∧
        Search.planned? (Scope.declared model query) call = some search ∧
        Expr.keyTest? model query call = some test ∧
        draft.searches = [search] ∧ draft.statement.memberships = [test] := by
  obtain ⟨searches, recorded, isSearches⟩ := drafted.searches
  have tests := drafted.memberships
  rcases PlannedSearches.after?_empty_eq_some.mp recorded with
    ⟨noCalls, rfl⟩ | ⟨call, search, isCall, planned, rfl⟩
  · rw [noCalls, List.forall₂_nil_left_iff] at tests
    exact .inl ⟨noCalls, isSearches, tests⟩
  · rw [isCall] at tests
    obtain ⟨test, _, isTest, rest, isMemberships⟩ := List.forall₂_cons_left_iff.mp tests
    obtain rfl := List.forall₂_nil_left_iff.mp rest
    exact .inr ⟨call, search, test, isCall, planned, isTest, isSearches, isMemberships⟩

/-- A value set is used exactly if there is a search, and then it is the one of its keys. -/
theorem search_mem_uses
    {name : String} :
    ⟨name, .search⟩ ∈ draft.statement.uses ↔
      name = Search.keyParameter 1 ∧ draft.searches ≠ [] := by
  have isNode : (∃ call, call ∈ query.searchCalls) ↔
      ∃ node ∈ query.nodes, node.searchCall?.isSome := by
    simp only [Query.searchCalls, List.mem_filterMap, Option.isSome_iff_exists]
    grind
  rw [drafted.mem_uses]
  constructor
  · rintro ⟨node, isPart, uses⟩
    obtain ⟨rfl, isSearch⟩ := Expr.use?_eq_some_search.mp uses
    obtain ⟨call, isCall⟩ := isNode.mpr ⟨node, isPart, isSearch⟩
    rw [Query.searchCalls_eq_append, drafted.noOthers, List.append_nil] at isCall
    refine ⟨rfl, ?_⟩
    rcases drafted.search_cases with ⟨noCalls, _⟩ | ⟨_, search, _, _, _, _, isSearches, _⟩
    · simp [noCalls] at isCall
    · simp [isSearches]
  · rintro ⟨rfl, nonempty⟩
    rcases drafted.search_cases with ⟨_, noSearches, _⟩ | ⟨call, _, _, isCall, _⟩
    · exact absurd noSearches nonempty
    · obtain ⟨node, isPart, isSearch⟩ := isNode.mp
        ⟨call, by simp [Query.searchCalls_eq_append, isCall]⟩
      exact ⟨node, isPart, Expr.use?_eq_some_search.mpr ⟨rfl, isSearch⟩⟩

variable
  {parameters : List StatementParameter}
  (listed : listUses [] draft.statement.uses = .ok parameters)

include listed

/-- The parameters that are value sets: the one of the search's keys, if there is a search. -/
theorem search_mem_parameters
    {name : String} :
    ⟨name, .search⟩ ∈ parameters ↔ name = Search.keyParameter 1 ∧ draft.searches ≠ [] := by
  rw [(listUses_eq_ok distinct_nil listed).2, drafted.search_mem_uses]
  simp

omit listed in
/-- The search of a draft finds the keys for the one value set that can be read. -/
theorem finds_keyParameter
    (nonempty : draft.searches ≠ []) :
    (steps draft parameters).finds (Search.keyParameter 1) = true := by
  rcases drafted.search_cases with ⟨_, noSearches, _⟩ |
    ⟨call, search, _, _, planned, _, isSearches, _⟩
  · exact absurd noSearches nonempty
  · have isParameter := Search.parameter_of_planned? planned
    simp [steps, isSearches, Steps.finds, Steps.search?, SearchStep.ofSearch, isParameter]

/-- The hook puts the search of the draft in front of the row step. -/
theorem showFilters_eq_ok :
    PlanHook.showFilters Extensions.search.hooks 0 draft.filters
      (.rowsOnly (rows draft parameters)) = .ok (steps draft parameters) := by
  refine (showFilters_putFirst 0 draft.filters _).trans ?_
  rw [drafted.flatMap_searches]
  rcases drafted.search_cases with ⟨_, noSearches, _⟩ |
    ⟨call, search, _, _, planned, _, isSearches, _⟩
  · simp [noSearches, Search.searchFirstFor, steps]
  · have isListed : ⟨search.parameter, .search⟩ ∈ parameters :=
      (drafted.search_mem_parameters listed).mpr
        ⟨Search.parameter_of_planned? planned, by simp [isSearches]⟩
    have reads : (rows draft parameters).readsValueSet search.parameter = true := by
      rw [RowStep.readsValueSet, List.any_eq_true]
      exact ⟨_, isListed, by simp⟩
    simp [isSearches, Search.searchFirstFor, Steps.rowStep, reads, Steps.searchFirst, steps]

/-- The check of value sets passes. -/
theorem checkValueSets_eq_ok :
    (steps draft parameters).checkValueSets draft.statement.predicate? = .ok () := by
  have subset := draft.statement.memberships_predicate_sublist
  refine Steps.checkValueSets_eq_ok ?few ?tested ?read
  case few =>
    refine Nat.le_trans subset.length_le ?_
    rcases drafted.search_cases with ⟨_, _, noTests⟩ | ⟨_, _, _, _, _, _, _, isTests⟩
    · simp [noTests]
    · simp [isTests]
  case tested =>
    intro test isTest
    have inStatement := subset.subset isTest
    rcases drafted.search_cases with ⟨_, _, noTests⟩ |
      ⟨_, _, only, _, _, keyTest, nonempty, isTests⟩
    · rw [noTests] at inStatement
      exact absurd inStatement List.not_mem_nil
    · rw [isTests, List.mem_singleton] at inStatement
      subst inStatement
      obtain ⟨column, rfl⟩ := Expr.exists_of_keyTest? keyTest
      exact drafted.finds_keyParameter (by simp [nonempty])
  case read =>
    rintro ⟨name, supplier⟩ isListed (rfl : supplier = .search)
    rw [rowStep_steps] at isListed
    obtain ⟨rfl, nonempty⟩ := (drafted.search_mem_parameters listed).mp isListed
    exact drafted.finds_keyParameter nonempty

end Drafted

/-- A query has a plan exactly if it has a draft whose parameters can be listed. -/
theorem plan_eq_ok
    {plan : QueryPlan} :
    (searching model).plan query = .ok plan ↔
      ∃ draft parameters, Drafted model query draft ∧
        listUses [] draft.statement.uses = .ok parameters ∧
        plan = ⟨steps draft parameters, draft.searches⟩ := by
  simp only [Planner.plan, Except.bind_eq_ok, draft_eq_ok, Except.mapError_eq_ok]
  constructor
  · rintro ⟨draft, drafted, written, writes, steps, hooked, _, checked, ⟨⟩⟩
    rw [Statement.write_eq drafted.resolved] at writes
    obtain ⟨parameters, listed, rfl⟩ := Except.map_eq_ok.mp writes
    refine ⟨draft, parameters, drafted, listed, ?_⟩
    rw [Except.ok.inj (hooked.symm.trans (drafted.showFilters_eq_ok listed))]
  · rintro ⟨draft, parameters, drafted, listed, rfl⟩
    exact ⟨draft, drafted, ⟨draft.statement.text, parameters⟩,
      by rw [Statement.write_eq drafted.resolved, listed]; rfl,
      _, drafted.showFilters_eq_ok listed, (), drafted.checkValueSets_eq_ok listed, rfl⟩

end Planner

end FullTextQuery
