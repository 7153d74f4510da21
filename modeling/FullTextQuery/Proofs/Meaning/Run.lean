import FullTextQuery.Binary64.Nearest
import FullTextQuery.Proofs.Meaning.Selection
import FullTextQuery.Proofs.Plan.Bindings
import FullTextQuery.Proofs.Planner.Plan

namespace FullTextQuery

/-!
# What a run returns

A run of a plan returns the records that its query means: the search calls ask
whether a key is among the values of the service's keys, whatever stands around
them.  So neither the order nor the repetition of keys matters, no key makes a
search call false, and what a search does not find, its negation does.
-/

namespace Value

/-- The value of a key is of the kind that was asked for. -/
theorem kind?_of_ofKey
    {raw : String}
    {kind : ScalarKind}
    {value : Value}
    (converted : ofKey raw kind = .ok value) :
    value.kind? = some kind := by
  cases kind with
  | text =>
      obtain rfl := Except.ok.inj converted
      rfl
  | integer =>
      unfold ofKey at converted
      cases isNumeral : Decimal.int64? (Text.trimBlanks raw.toList) with
      | none => simp [isNumeral] at converted
      | some n =>
          simp only [isNumeral] at converted
          obtain rfl := Except.ok.inj converted
          rfl
  | real => cases converted

end Value

namespace Expr

/-- Whether an expression is a real number. -/
def isReal : Expr → Bool
  | .literal (.real _) => true
  | _ => false

end Expr

namespace Interpretation

open Planner Store

variable {i : Interpretation} {draft : Draft} {parameters : List StatementParameter}
  {σ τ υ : Type} {database : Database σ}

/-- All parameters of a draft's statement are bound to what is supplied for them. -/
theorem exists_bindings_of_drafted
    (drafted : Drafted i.model i.query draft)
    (listed : Sql.listUses [] draft.statement.uses = .ok parameters)
    (supplied : ∀ name, ⟨name, .caller⟩ ∈ parameters → i.parameters.contains name = true) :
    ∃ bindings, (Planner.rows draft parameters).bindings
        ((steps draft parameters).contextOf i.parameters i.found) = .ok bindings ∧
      ∀ parameter ∈ draft.statement.uses, i.Supplied bindings parameter := by
  obtain ⟨distinct, isListed⟩ := Sql.listUses_eq_ok Sql.distinct_nil listed
  generalize isContext : (steps draft parameters).contextOf i.parameters i.found = context
  have ofCaller : ∀ name, ⟨name, .caller⟩ ∈ parameters → ∃ value,
      i.parameters.get? name = some value ∧
        RowStep.binding context ⟨name, .caller⟩ = .ok (.single value) := by
    intro name isParameter
    obtain ⟨value, isValue⟩ := Option.isSome_iff_exists.mp (supplied name isParameter)
    refine ⟨value, isValue, RowStep.binding_caller_eq_ok.mpr ⟨value, ?_, rfl⟩⟩
    rw [← isContext, Steps.contextOf_parameters, isValue]
  have ofSearch : ∀ name, ⟨name, .search⟩ ∈ parameters →
      RowStep.binding context ⟨name, .search⟩ = .ok (.array i.found) := by
    intro name isParameter
    obtain ⟨rfl, nonempty⟩ := (drafted.search_mem_parameters listed).mp isParameter
    rcases drafted.search_cases with ⟨_, noSearches, _⟩ |
      ⟨call, search, _, _, planned, _, isSearches, _⟩
    · exact absurd noSearches nonempty
    · refine RowStep.binding_search_eq_ok.mpr ⟨i.found, ?_, rfl⟩
      rw [← isContext, ← Search.parameter_of_planned? planned]
      simp [Steps.contextOf, steps, isSearches, Steps.search?, SearchStep.ofSearch,
        RunContext.putSet, NameMap.get?_insert]
  have someBinding : ∀ parameter ∈ (Planner.rows draft parameters).parameters,
      ∃ bound, RowStep.binding context parameter = .ok bound := by
    rintro ⟨name, _ | _⟩ isParameter
    · obtain ⟨value, _, isBound⟩ := ofCaller name isParameter
      exact ⟨_, isBound⟩
    · exact ⟨_, ofSearch name isParameter⟩
  obtain ⟨bindings, areBound, each⟩ := RowStep.exists_bindings distinct someBinding
  refine ⟨bindings, areBound, ?_⟩
  rintro ⟨name, _ | _⟩ isUse
  all_goals have isParameter := (isListed _).mpr (.inr isUse)
  · obtain ⟨value, isValue, isBound⟩ := ofCaller name isParameter
    exact ⟨value, isValue, each _ isParameter _ isBound⟩
  · exact each _ isParameter _ (ofSearch name isParameter)

/-- The values that a search finds are of the kind of its key. -/
theorem foundFor_of_finds
    {plan : QueryPlan}
    (drafted : Drafted i.model i.query draft)
    (isSteps : plan.steps = steps draft parameters)
    (finds : database.Finds plan i.parameters i.found) :
    ∀ call ∈ i.query.filterCalls, i.FoundFor call.1 := by
  intro call isCall
  rcases drafted.search_cases with ⟨noCalls, _⟩ |
    ⟨only, search, _, isOnly, planned, _, isSearches, _⟩
  · rw [noCalls] at isCall
    exact absurd isCall List.not_mem_nil
  · rw [isOnly, List.mem_singleton] at isCall
    subst isCall
    simp only [Database.Finds, isSteps, steps, isSearches, Steps.search?] at finds
    obtain ⟨_, keys, _, _, converted⟩ := finds
    simp only [Search.planned?, Scope.get?_declared drafted.known, Option.bind_eq_bind,
      Option.bind_eq_some_iff, Option.map_eq_some_iff, Option.pure_def,
      Option.some.injEq] at planned
    obtain ⟨_, ⟨entity, ranges, rfl⟩, ⟨key, index⟩, searchable, rfl⟩ := planned
    rintro _ isEntity _ isSearchable value isFound
    obtain rfl := Option.some.inj (ranges.symm.trans isEntity)
    obtain rfl := Option.some.inj (searchable.symm.trans isSearchable)
    obtain ⟨raw, _, isValue⟩ :=
      List.exists_of_forall₂_right (Except.mapM_eq_ok.mp converted) isFound
    exact Value.kind?_of_ofKey isValue

/-- A run of the query that finds the values, reads the store and returns some records. -/
structure Returns
    [NumeralReading]
    (i : Interpretation)
    (database : Database σ)
    (plan : QueryPlan)
    (records : List Record) :
    Prop where
  planned : (searching i.model).plan i.query = .ok plan
  store : database.store = i.store
  finds : database.Finds plan i.parameters i.found
  returned : (database.run plan i.parameters).1 = .ok records

/-- Where the parameters of a plan are bound and its statement selects, its run returns records. -/
theorem exists_perm_of_bindings
    [NumeralReading]
    {plan : QueryPlan}
    (planned : (searching i.model).plan i.query = .ok plan)
    (unlimited : i.query.limit? = none)
    (connected : ∀ filter ∈ i.query.filters, filter.connectsSearches = true)
    (agrees : i.Agrees)
    (readsBack : i.ReadsBack)
    (sameStore : database.store = i.store)
    (finds : database.Finds plan i.parameters i.found)
    {bindings : Bindings}
    {results : List (List Cell)}
    (areBound : plan.steps.rowStep.bindings (plan.steps.contextOf i.parameters i.found) =
      .ok bindings)
    (selects : i.store.select plan.sql bindings = .ok results) :
    ∃ records, (database.run plan i.parameters).1 = .ok records ∧
      records.Perm (i.records plan.columns) := by
  obtain ⟨draft, parameters, drafted, listed, rfl⟩ := plan_eq_ok.mp planned
  simp only [QueryPlan.sql, QueryPlan.columns, rowStep_steps] at areBound selects ⊢
  have supplied : ∀ name, ⟨name, .caller⟩ ∈ parameters → i.parameters.contains name = true := by
    intro name isParameter
    obtain ⟨bound, isBound⟩ := RowStep.exists_binding_of_bindings areBound _ isParameter
    obtain ⟨value, isValue, _⟩ := RowStep.binding_caller_eq_ok.mp isBound
    rw [Steps.contextOf_parameters] at isValue
    simp [NameMap.contains, isValue]
  obtain ⟨_, areSame, each⟩ := exists_bindings_of_drafted drafted listed supplied
  obtain rfl := Except.ok.inj (areSame.symm.trans areBound)
  have selected := perm_of_select drafted unlimited connected agrees readsBack each
    (foundFor_of_finds drafted rfl finds) selects
  have sameLength : ∀ cells ∈ results, cells.length = draft.columns.length := by
    intro cells isResult
    obtain ⟨row, _, rfl⟩ := List.mem_map.mp (selected.subset isResult)
    have names := congrArg List.length drafted.projection.names
    rw [List.length_map, List.length_map] at names
    rw [List.length_map, (drafted.projection.outputs drafted.known).length_eq, names]
  refine ⟨results.map (Planner.rows draft parameters).recordOf, ?_, ?_⟩
  · rw [Database.run_eq_of_finds finds, sameStore, rowStep_steps]
    exact RowStep.run_eq_ok areBound selects sameLength
  · refine (selected.map _).trans (.of_eq ?_)
    rw [List.map_map]
    rfl

/-- The records that a run returns are those that the query means, in some order. -/
theorem Returns.perm
    [NumeralReading]
    {plan : QueryPlan}
    {records : List Record}
    (returns : i.Returns database plan records)
    (unlimited : i.query.limit? = none)
    (connected : ∀ filter ∈ i.query.filters, filter.connectsSearches = true)
    (agrees : i.Agrees)
    (readsBack : i.ReadsBack) :
    records.Perm (i.records plan.columns) := by
  have returned := returns.returned
  rw [Database.run_eq_of_finds returns.finds, returns.store] at returned
  obtain ⟨bindings, results, areBound, selects⟩ := RowStep.exists_select_of_run returned
  obtain ⟨_, isReturned, perm⟩ := exists_perm_of_bindings returns.planned unlimited
    connected agrees readsBack returns.store returns.finds areBound selects
  obtain rfl := Except.ok.inj (returns.returned.symm.trans isReturned)
  exact perm

/-- With a search call beside a condition, no other is in the condition. -/
theorem searchCalls_of_plan
    {plan : QueryPlan}
    {condition call : Expr}
    {searched : String × Expr.SearchPhrase}
    (isSearch : call.searchCall? = some searched)
    (planned : (searching i.model).plan (i.withFilters [.and condition call]).query = .ok plan) :
    condition.searchCalls = [] := by
  obtain ⟨draft, _, drafted, _, _⟩ := plan_eq_ok.mp planned
  have filterCalls : (i.withFilters [.and condition call]).query.filterCalls =
      condition.searchCalls ++ [searched] := by
    simp [Query.filterCalls, withFilters, Expr.searchCalls_of_searchCall? isSearch]
  rcases drafted.search_cases with ⟨noCalls, _⟩ | ⟨only, _, _, isOnly, _⟩
  · simp [filterCalls] at noCalls
  · have single := congrArg List.length (filterCalls.symm.trans isOnly)
    simpa using single

/-- The columns of a plan do not depend on the filters. -/
theorem columns_of_plan
    {first second : List Expr}
    {firstPlan secondPlan : QueryPlan}
    (firstPlanned : (searching i.model).plan (i.withFilters first).query = .ok firstPlan)
    (secondPlanned : (searching i.model).plan (i.withFilters second).query = .ok secondPlan) :
    secondPlan.columns = firstPlan.columns := by
  obtain ⟨firstDraft, _, firstDrafted, _, rfl⟩ := plan_eq_ok.mp firstPlanned
  obtain ⟨secondDraft, _, secondDrafted, _, rfl⟩ := plan_eq_ok.mp secondPlanned
  have firstProjection : ProjectionDrafted i.model i.query _ _ := firstDrafted.projection
  simp only [QueryPlan.columns, rowStep_steps]
  exact firstProjection.unique secondDrafted.projection

/-- The query with a single filter that has no search calls has none at all. -/
theorem searchCalls_withFilters_of_plan
    {condition : Expr}
    {plan : QueryPlan}
    (noCalls : condition.searchCalls = [])
    (planned : (searching i.model).plan (i.withFilters [condition]).query = .ok plan) :
    (i.withFilters [condition]).query.searchCalls = [] := by
  obtain ⟨draft, _, drafted, _, _⟩ := plan_eq_ok.mp planned
  rw [Query.searchCalls_eq_append, drafted.noOthers]
  simp [Query.filterCalls, withFilters, noCalls]

/-- Without reals there is nothing to read back, however the store reads numerals. -/
theorem readsBack_of_no_reals
    [NumeralReading]
    (noReals : ∀ e ∈ i.query.conditions ++ i.query.projected i.model,
      ∀ node ∈ e.nodes, node.isReal = false) :
    i.ReadsBack := by
  intro e isPart x isNode
  have isReal : (Expr.literal (.real x)).isReal = false := noReals e isPart _ isNode
  cases isReal

/-- Other conditions whose reals are those of a condition decide the records by the same reals. -/
theorem ReadsBack.withFilters
    [NumeralReading]
    {condition filter : Expr}
    (readsBack : (i.withFilters [condition]).ReadsBack)
    (sameReals : ∀ x : Binary64, .literal (.real x) ∈ filter.nodes →
      .literal (.real x) ∈ condition.nodes) :
    (i.withFilters [filter]).ReadsBack := by
  intro e isPart x isNode
  rcases List.mem_append.mp isPart with isCondition | isProjected
  · rcases List.mem_cons.mp isCondition with rfl | isJoin
    · exact readsBack condition (by simp [Query.conditions, Interpretation.withFilters]) x
        (sameReals x isNode)
    · exact readsBack e (List.mem_append_left _ (List.mem_cons_of_mem _ isJoin)) x isNode
  · exact readsBack e (List.mem_append_right _ isProjected) x isNode

/--
If no key is null, runs for a condition with a search and for the condition with
the negated search return together what a run for the condition alone returns.
-/
theorem append_perm_of_returns
    [NumeralReading]
    (unlimited : i.query.limit? = none)
    (agrees : i.Agrees)
    {condition call : Expr}
    {item : String}
    {phrase : Expr.SearchPhrase}
    (isSearch : call.searchCall? = some (item, phrase))
    (notNull : ∀ row ∈ i.allRows, i.key row item ≠ .null)
    (readsBack : (i.withFilters [condition]).ReadsBack)
    {found : Database σ}
    {other : Database τ}
    {whole : Database υ}
    {foundPlan otherPlan wholePlan : QueryPlan}
    {foundRecords otherRecords wholeRecords : List Record}
    {values : List Value}
    (foundReturns : (i.withFilters [.and condition call]).Returns found foundPlan foundRecords)
    (otherReturns : (i.withFilters [.and condition (.not call)]).Returns other otherPlan
      otherRecords)
    (wholeReturns : ((i.withFilters [condition]).withFound values).Returns whole wholePlan
      wholeRecords) :
    (foundRecords ++ otherRecords).Perm wholeRecords := by
  have noCalls := searchCalls_of_plan isSearch foundReturns.planned
  have connects := Expr.connectsSearches_of_searchCalls_eq_nil noCalls
  have callConnects := Expr.connectsSearches_of_searchCall? isSearch
  have noReal : ∀ x : Binary64, .literal (.real x) ∉ call.nodes := by
    obtain ⟨text, rfl, _⟩ := Expr.searchCall?_eq_some.mp isSearch
    simp [Expr.nodes_call, isSearch]
  have foundPerm := foundReturns.perm unlimited
    (by simp [withFilters, Expr.connectsSearches, connects, callConnects]) agrees
    (readsBack.withFilters (by simp [Expr.nodes_and, noReal]))
  have otherPerm := otherReturns.perm unlimited
    (by simp [withFilters, Expr.connectsSearches, connects, callConnects]) agrees
    (readsBack.withFilters (by simp [Expr.nodes_and, Expr.nodes_not, noReal]))
  have wholePerm := wholeReturns.perm unlimited (by simp [withFilters, withFound, connects])
    agrees readsBack
  have noneThere : (i.withFilters [condition]).query.searchCalls = [] :=
    searchCalls_withFilters_of_plan noCalls wholeReturns.planned
  rw [columns_of_plan foundReturns.planned otherReturns.planned] at otherPerm
  rw [records_withFound (by simp [noneThere]),
    columns_of_plan foundReturns.planned wholeReturns.planned] at wholePerm
  have together := records_search_append_perm i foundPlan.columns condition isSearch notNull
  exact (foundPerm.append otherPerm).trans (together.trans wholePerm.symm)

/-- What runs of a query return, as far as its search decides it. -/
structure RunsAsMeant
    [NumeralReading]
    (i : Interpretation)
    (database : Database σ)
    (plan : QueryPlan) :
    Prop where
  returned : ∃ records, i.Returns database plan records ∧ records.Perm (i.records plan.columns)
  sameValues : ∀ {τ : Type} {other : Database τ} {otherPlan : QueryPlan}
    {records otherRecords : List Record} {values : List Value},
    (∀ value, value ∈ values ↔ value ∈ i.found) → i.Returns database plan records →
    (i.withFound values).Returns other otherPlan otherRecords → otherRecords.Perm records
  noValues : i.found = [] → ∀ {call : Expr}, call.searchCall?.isSome →
    ∀ row, i.cell row call = Cell.ofTruth (some false)
  negation : ∀ {condition call : Expr} {item : String} {phrase : Expr.SearchPhrase},
    call.searchCall? = some (item, phrase) → (∀ row ∈ i.allRows, i.key row item ≠ .null) →
    (i.withFilters [condition]).ReadsBack →
    ∀ {τ υ ρ : Type} {found : Database τ} {other : Database υ} {whole : Database ρ}
      {foundPlan otherPlan wholePlan : QueryPlan}
      {foundRecords otherRecords wholeRecords : List Record} {values : List Value},
    (i.withFilters [.and condition call]).Returns found foundPlan foundRecords →
    (i.withFilters [.and condition (.not call)]).Returns other otherPlan otherRecords →
    ((i.withFilters [condition]).withFound values).Returns whole wholePlan wholeRecords →
    (foundRecords ++ otherRecords).Perm wholeRecords

/--
The plan of a query without a limit, whose search call stands under connectives
only and whose reals read back, runs as the query is meant: with all parameters
supplied, all keys converted and no error of the statement, it returns the records of
the query.
-/
theorem runsAsMeant_of_plan
    [NumeralReading]
    {plan : QueryPlan}
    (planned : (searching i.model).plan i.query = .ok plan)
    (unlimited : i.query.limit? = none)
    (connected : ∀ filter ∈ i.query.filters, filter.connectsSearches = true)
    (agrees : i.Agrees)
    (readsBack : i.ReadsBack)
    (sameStore : database.store = i.store)
    (supplied : ∀ name, ⟨name, .caller⟩ ∈ plan.parameters → i.parameters.contains name = true)
    (finds : database.Finds plan i.parameters i.found)
    (runs : ∀ bindings, plan.steps.rowStep.bindings
      (plan.steps.contextOf i.parameters i.found) = .ok bindings →
        ∃ results, i.store.select plan.sql bindings = .ok results) :
    i.RunsAsMeant database plan where
  returned := by
    obtain ⟨draft, parameters, drafted, listed, isPlan⟩ := plan_eq_ok.mp planned
    have isSteps : plan.steps = steps draft parameters := congrArg QueryPlan.steps isPlan
    have isRows : plan.steps.rowStep = Planner.rows draft parameters := by
      rw [isSteps, rowStep_steps]
    rw [QueryPlan.parameters, isRows] at supplied
    obtain ⟨bindings, areBound, _⟩ := exists_bindings_of_drafted drafted listed supplied
    rw [← isRows, ← isSteps] at areBound
    obtain ⟨results, selects⟩ := runs bindings areBound
    obtain ⟨records, returned, perm⟩ := exists_perm_of_bindings planned unlimited connected
      agrees readsBack sameStore finds areBound selects
    exact ⟨records, ⟨planned, sameStore, finds, returned⟩, perm⟩
  sameValues := by
    intro τ other otherPlan records otherRecords values same returns otherReturns
    obtain rfl := Except.ok.inj (otherReturns.planned.symm.trans planned)
    have otherPerm := otherReturns.perm unlimited connected agrees readsBack
    rw [records_withFound fun row call _ => Value.foundAmong_congr same _] at otherPerm
    exact otherPerm.trans (returns.perm unlimited connected agrees readsBack).symm
  noValues := by
    intro nothing call isSome row
    obtain ⟨⟨item, phrase⟩, isSearch⟩ := Option.isSome_iff_exists.mp isSome
    rw [cell_of_searchCall? isSearch, nothing, Value.foundAmong_nil]
  negation := by
    intro _ _ _ _ isSearch notNull filterReadsBack _ _ _ _ _ _ _ _ _ _ _ _ _ foundReturns
      otherReturns wholeReturns
    exact append_perm_of_returns unlimited agrees isSearch notNull filterReadsBack foundReturns
      otherReturns wholeReturns

end Interpretation

namespace Query

/-- The customers that a search does not find, and the one with an identity. -/
def notFoundOrNamed : Query where
  source := ⟨"c", "Customer"⟩
  filters := [.or (.not (.search "c" "acme")) (.compare (.member "c" "Id") .eq (.parameter "id"))]
  projection := [.member "c" "Id"]

end Query

namespace QueryPlan

/-- The search and the statement for the customers that are not found or named. -/
def notFoundOrNamed : QueryPlan where
  steps := .searchThenRows ⟨1, "search_ids_1", "customers", .literal "acme", .text⟩ {
    sql := "SELECT \"c\".\"Id\" AS \"Id\" FROM \"Customer\" AS \"c\" " ++
      "WHERE ((NOT \"c\".\"Id\" IN rarray(:search_ids_1)) OR (\"c\".\"Id\" = :id))"
    parameters := [⟨"search_ids_1", .search⟩, ⟨"id", .caller⟩]
    columns := [⟨"Id", some .text⟩] }
  searches := [⟨1, "search_ids_1", .literal "acme", "customers", "Customer", "Id", .text⟩]

end QueryPlan

namespace Store

/-- A table of three customers. -/
def customers : Store where
  tables := [{
    name := "Customer"
    columns := [⟨"Id", .text⟩, ⟨"FullName", .text⟩]
    rows := [[.text "A", .text "Ada"], [.text "B", .text "Bea"], [.text "C", .null]] }]

end Store

namespace Database

/-- A database of customers whose search service hands back a key twice. -/
def customers : Database Unit where
  planner := .searching .shop
  service := ⟨fun _ _ world => (.ok ["B", "A", "B"], world)⟩
  world := ()
  store := .customers

end Database

namespace Interpretation

open Planner Store

/-- The customers that are not found or named, where two are found and one of them is named. -/
def notFoundOrNamed : Interpretation where
  model := .shop
  query := .notFoundOrNamed
  store := .customers
  parameters := ⟨[("id", .text "A")]⟩
  found := [.text "B", .text "A", .text "B"]

/-- The query for the customers that are not found or named runs as it is meant. -/
theorem runsAsMeant_notFoundOrNamed :
    notFoundOrNamed.RunsAsMeant Database.customers QueryPlan.notFoundOrNamed := by
  have planned : (searching .shop).plan .notFoundOrNamed = .ok .notFoundOrNamed := by
    decide +kernel
  have finds : Database.customers.Finds .notFoundOrNamed notFoundOrNamed.parameters
      notFoundOrNamed.found :=
    ⟨"acme", ["B", "A", "B"], rfl, rfl, rfl⟩
  have supplied : ∀ name, ⟨name, .caller⟩ ∈ QueryPlan.notFoundOrNamed.parameters →
      notFoundOrNamed.parameters.contains name = true := by
    intro name isParameter
    obtain rfl : name = "id" := by
      simpa [QueryPlan.parameters, QueryPlan.notFoundOrNamed, Steps.rowStep] using isParameter
    decide
  have runs : (QueryPlan.notFoundOrNamed.steps.rowStep.bindings
      (QueryPlan.notFoundOrNamed.steps.contextOf notFoundOrNamed.parameters
        notFoundOrNamed.found)).toOption.any (fun bindings =>
          (Store.customers.select QueryPlan.notFoundOrNamed.sql bindings).toOption.isSome) =
        true := by
    decide +kernel
  have readsBack : notFoundOrNamed.ReadsBack :=
    readsBack_of_no_reals (by decide +kernel)
  refine runsAsMeant_of_plan planned rfl (by decide +kernel) (agrees_of_stored (by decide +kernel))
    readsBack rfl supplied finds ?_
  intro bindings areBound
  rw [areBound, Except.toOption_ok, Option.any_some] at runs
  exact Except.exists_eq_ok_iff.mpr runs

end Interpretation

namespace Model

/-- Entities with a column that has the name in which infinity is written. -/
def namedInfinity : Model where
  entities := ⟨[
    ("C", {
      name := "C"
      properties := [⟨"Id", .integer, "Id"⟩, ⟨"inf", .integer, "inf"⟩]
      primaryKey := ["Id"]
      searchIndex? := some "idx" })]⟩

end Model

namespace Query

/-- What a search finds, as far as its key is below a number that is too large for a real. -/
def foundBelowInfinity : Query where
  source := ⟨"c", "C"⟩
  filters := [.and (.search "c" "x")
    (.compare (.member "c" "Id") .lt (.literal (.real (.infinity false))))]
  projection := [.member "c" "Id"]

end Query

namespace QueryPlan

/-- The search, and the statement that compares with a column instead of the number. -/
def foundBelowInfinity : QueryPlan where
  steps := .searchThenRows ⟨1, "search_ids_1", "idx", .literal "x", .integer⟩ {
    sql := "SELECT \"c\".\"Id\" AS \"Id\" FROM \"C\" AS \"c\" " ++
      "WHERE (\"c\".\"Id\" IN rarray(:search_ids_1) AND (\"c\".\"Id\" < inf))"
    parameters := [⟨"search_ids_1", .search⟩]
    columns := [⟨"Id", some .integer⟩] }
  searches := [⟨1, "search_ids_1", .literal "x", "idx", "C", "Id", .integer⟩]

end QueryPlan

namespace Store

/-- A table of two rows, of which only the second has a key below the other column. -/
def namedInfinity : Store where
  tables := [{
    name := "C"
    columns := [⟨"Id", .integer⟩, ⟨"inf", .integer⟩]
    rows := [[.integer 1, .integer 0], [.integer 2, .integer 5]] }]

end Store

namespace Database

/-- A database whose search service finds both rows. -/
def namedInfinity : Database Unit where
  planner := .searching .namedInfinity
  service := ⟨fun _ _ world => (.ok ["1", "2"], world)⟩
  world := ()
  store := .namedInfinity

end Database

namespace Interpretation

open Planner Store

/-- The found rows with keys below infinity, where both are found. -/
def foundBelowInfinity : Interpretation where
  model := .namedInfinity
  query := .foundBelowInfinity
  store := .namedInfinity
  parameters := ⟨[]⟩
  found := [.integer 1, .integer 2]

/-- A query that is read from a text and means two records, of which its run returns one. -/
theorem not_runsAsMeant_foundBelowInfinity :
    Query.parse (String.ofList ("from c in C where search(c, \"x\") and c.Id < 1".toList ++
        List.replicate 309 '0' ++ ".0 select c.Id".toList)) = .ok .foundBelowInfinity ∧
      (searching .namedInfinity).plan .foundBelowInfinity = .ok .foundBelowInfinity ∧
      (∀ filter ∈ Query.foundBelowInfinity.filters, filter.connectsSearches = true) ∧
      foundBelowInfinity.Agrees ∧
      Database.namedInfinity.Finds .foundBelowInfinity ⟨[]⟩ foundBelowInfinity.found ∧
      foundBelowInfinity.records QueryPlan.foundBelowInfinity.columns =
        [⟨[("Id", .integer 1)]⟩, ⟨[("Id", .integer 2)]⟩] ∧
      (Database.namedInfinity.run .foundBelowInfinity ⟨[]⟩).1 =
        .ok [⟨[("Id", .integer 2)]⟩] ∧
      ¬foundBelowInfinity.RunsAsMeant Database.namedInfinity .foundBelowInfinity := by
  have means : foundBelowInfinity.records QueryPlan.foundBelowInfinity.columns =
      [⟨[("Id", .integer 1)]⟩, ⟨[("Id", .integer 2)]⟩] := by
    decide +kernel
  have returns : (Database.namedInfinity.run .foundBelowInfinity ⟨[]⟩).1 =
      .ok [⟨[("Id", .integer 2)]⟩] := by
    decide +kernel
  refine ⟨?parsed, by decide +kernel, by decide +kernel, agrees_of_stored (by decide +kernel),
    ⟨"x", ["1", "2"], rfl, rfl, by decide +kernel⟩, means, returns, ?notMeant⟩
  case parsed =>
    simp only [Query.parse, String.toList_ofList, String.reduceToList]
    decide +kernel
  case notMeant =>
    intro meant
    obtain ⟨records, isReturned, perm⟩ := meant.returned
    obtain rfl := Except.ok.inj (isReturned.returned.symm.trans returns)
    rw [means] at perm
    exact absurd perm.length_eq (by decide)

end Interpretation

end FullTextQuery
