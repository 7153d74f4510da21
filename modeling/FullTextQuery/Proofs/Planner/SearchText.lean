import FullTextQuery.Binary64.Nearest
import FullTextQuery.Proofs.Plan.NamedParameters
import FullTextQuery.Proofs.Planner.RelatedDrafts
import FullTextQuery.Proofs.Query.Replacement

namespace FullTextQuery

/-!
# Search texts stay out of statements

The text of a search call goes on record and from there to the search step, and to
no other part of a plan.  With another text a query has the same plan but for
that text, and a run depends on it only through what the search service answers.
-/

namespace Query

/-- The query with a phrase in the place of the text of each search call. -/
def withPhrase
    (query : Query)
    (phrase : Expr.SearchPhrase) :
    Query :=
  query.replace ⟨fun _ => none, fun _ => phrase⟩

end Query

/-- The planned search with another phrase. -/
def PlannedSearch.withPhrase
    (search : PlannedSearch)
    (phrase : Expr.SearchPhrase) :
    PlannedSearch :=
  { search with phrase }

/-- The search step with another phrase. -/
def SearchStep.withPhrase
    (step : SearchStep)
    (phrase : Expr.SearchPhrase) :
    SearchStep :=
  { step with phrase }

/-- The steps with another phrase in the search step, if there is one. -/
def Steps.withPhrase
    (steps : Steps)
    (phrase : Expr.SearchPhrase) :
    Steps :=
  match steps with
  | .rowsOnly rows => .rowsOnly rows
  | .searchThenRows search rows => .searchThenRows (search.withPhrase phrase) rows

namespace QueryPlan

/-- The plan with another phrase in its search. -/
def withPhrase
    (plan : QueryPlan)
    (phrase : Expr.SearchPhrase) :
    QueryPlan where
  steps := plan.steps.withPhrase phrase
  searches := plan.searches.map (·.withPhrase phrase)

variable (plan : QueryPlan) (phrase : Expr.SearchPhrase)

@[simp] theorem rowStep_withPhrase :
    (plan.withPhrase phrase).steps.rowStep = plan.steps.rowStep := by
  obtain ⟨_ | _, _⟩ := plan <;> rfl

@[simp] theorem search?_withPhrase :
    (plan.withPhrase phrase).steps.search? = plan.steps.search?.map (·.withPhrase phrase) := by
  obtain ⟨_ | _, _⟩ := plan <;> rfl

@[simp] theorem summary_withPhrase :
    (plan.withPhrase phrase).summary = plan.summary := by
  obtain ⟨_ | _, _⟩ := plan <;> rfl

@[simp] theorem withPhrase_withPhrase
    (earlier : Expr.SearchPhrase) :
    (plan.withPhrase earlier).withPhrase phrase = plan.withPhrase phrase := by
  obtain ⟨_ | _, searches⟩ := plan <;>
    simp [withPhrase, Steps.withPhrase, SearchStep.withPhrase, PlannedSearch.withPhrase,
      Function.comp_def]

end QueryPlan

namespace Expr

/-- Another text in a search call changes nothing in the image of an expression. -/
theorem image?_replace_phrase
    {model : Model}
    {query : Query}
    (phrase : SearchPhrase → SearchPhrase)
    (e : Expr) :
    (e.replace ⟨fun _ => none, phrase⟩).image? model query = e.image? model query := by
  induction e with
  | item name => rfl
  | member source property => rfl
  | literal value => rfl
  | parameter name => rfl
  | compare left op right leftSame rightSame => rw [replace, image?, image?, leftSame, rightSame]
  | and left right leftSame rightSame => rw [replace, image?, image?, leftSame, rightSame]
  | or left right leftSame rightSame => rw [replace, image?, image?, leftSame, rightSame]
  | not operand operandSame => rw [replace, image?, image?, operandSame]
  | call function args argsSame =>
      cases isSearch : (Expr.call function args).searchCall? with
      | some searched =>
          obtain ⟨source, earlier⟩ := searched
          have stillSearch := searchCall?_replace_of_searchCall?
            ⟨fun _ => none, phrase⟩ isSearch
          rw [replace_of_searchCall? _ isSearch] at stillSearch ⊢
          rw [image?, image?, isSearch, stillSearch]
      | none =>
          have stillNot := searchCall?_replace_eq_none ⟨fun _ => none, phrase⟩ isSearch
          have argImages : ∀ es : List Expr,
              (∀ e ∈ es, (e.replace ⟨fun _ => none, phrase⟩).image? model query =
                e.image? model query) →
              imageAll? model query (es.map (replace ⟨fun _ => none, phrase⟩)) =
                imageAll? model query es := by
            intro es
            induction es with
            | nil => exact fun _ => rfl
            | cons e es inductionHypothesis =>
                intro same
                obtain ⟨first, others⟩ := List.forall_mem_cons.mp same
                rw [List.map_cons, imageAll?, imageAll?, first, inductionHypothesis others]
          rw [replace_call _ isSearch] at stillNot ⊢
          rw [image?, image?, isSearch, stillNot, argImages args argsSame, List.length_map]

end Expr

namespace Planner

open PlannedSearches

variable {model : Model} {query : Query} {draft : Draft} {plan : QueryPlan}

/-- A search with another text is planned as the search, but for the text. -/
theorem planned?_withPhrase
    {scope : Scope}
    {call : String × Expr.SearchPhrase}
    {search : PlannedSearch}
    (planned : Search.planned? scope call = some search)
    (phrase : Expr.SearchPhrase) :
    Search.planned? scope (call.1, phrase) = some (search.withPhrase phrase) := by
  simp only [Search.planned?, Option.bind_eq_bind, Option.bind_eq_some_iff, Option.pure_def,
    Option.some.injEq] at planned ⊢
  obtain ⟨found, inScope, entry, searchable, rfl⟩ := planned
  exact ⟨found, inScope, entry, searchable, rfl⟩

/-- A planned search has the phrase of its call. -/
theorem phrase_of_planned?
    {scope : Scope}
    {call : String × Expr.SearchPhrase}
    {search : PlannedSearch}
    (planned : Search.planned? scope call = some search) :
    search.phrase = call.2 := by
  simp only [Search.planned?, Option.bind_eq_bind, Option.bind_eq_some_iff, Option.pure_def,
    Option.some.injEq] at planned
  obtain ⟨found, inScope, entry, searchable, rfl⟩ := planned
  rfl

/-- After a replacement, the searches of a query are those of before with other texts. -/
theorem exists_recorded_replace
    {scope : Scope}
    {searches : PlannedSearches}
    (recorded : after? scope query.filterCalls {} = some searches)
    (replacement : Replacement) :
    ∃ others, after? scope (query.replace replacement).filterCalls {} = some others ∧
      others.recorded = searches.recorded.map fun search =>
        search.withPhrase (replacement.phrase search.phrase) := by
  rw [Query.filterCalls_replace]
  rcases after?_empty_eq_some.mp recorded with ⟨noCalls, rfl⟩ | ⟨call, search, isCall, planned, rfl⟩
  · exact ⟨{}, by simp [noCalls], rfl⟩
  · refine ⟨⟨[search.withPhrase (replacement.phrase search.phrase)], 1⟩, ?_, rfl⟩
    rw [phrase_of_planned? planned]
    exact after?_empty_eq_some.mpr (.inr ⟨_, _, by rw [isCall]; rfl,
      planned?_withPhrase planned _, rfl⟩)

/-- After a replacement, a query has search calls in its filters only if it had. -/
theorem otherCalls_replace
    (noOthers : query.otherCalls = [])
    (replacement : Replacement) :
    (query.replace replacement).otherCalls = [] := by
  refine (query.related_replace replacement).otherCalls_eq_nil ?_ noOthers
  rintro e _ rfl noCalls
  rw [Expr.searchCalls_replace, noCalls, List.map_nil]

/-- With another text, a query that has a draft has one with the same statement. -/
theorem Drafted.exists_withPhrase
    (drafted : Drafted model query draft)
    (phrase : Expr.SearchPhrase) :
    ∃ otherDraft, Drafted model (query.withPhrase phrase) otherDraft ∧
      otherDraft.statement = draft.statement ∧ otherDraft.columns = draft.columns ∧
      otherDraft.searches = draft.searches.map (·.withPhrase phrase) := by
  have related : query.Related _ (query.withPhrase phrase) := query.related_replace _
  have carries : Expr.Carries model query
      (fun e other => other = e.replace ⟨fun _ => none, fun _ => phrase⟩)
      (fun image otherImage => otherImage = image) := {
    image := by
      rintro e _ image rfl imaged
      exact ⟨image, by rw [Expr.image?_replace_phrase, imaged], rfl⟩
    named := by
      rintro e _ rfl
      exact e.namedAlike_replace _
    column := fun _ _ => rfl }
  obtain ⟨searches, recorded, isSearches⟩ := drafted.searches
  obtain ⟨otherSearches, otherRecorded, areOthers⟩ :=
    exists_recorded_replace recorded ⟨fun _ => none, fun _ => phrase⟩
  obtain ⟨otherDraft, otherDrafted, statement, columns, otherSearched⟩ :=
    drafted.exists_related carries related (otherCalls_replace drafted.noOthers _) otherRecorded
      (conjunction?_related fun left right => by rw [left, right])
  exact ⟨otherDraft, otherDrafted, statement.eq, columns, by
    rw [otherSearched, areOthers, isSearches]⟩

/-- With another text, a query has the same plan but for the text. -/
theorem plan_withPhrase
    (planned : (searching model).plan query = .ok plan)
    (phrase : Expr.SearchPhrase) :
    (searching model).plan (query.withPhrase phrase) = .ok (plan.withPhrase phrase) := by
  obtain ⟨draft, parameters, drafted, listed, rfl⟩ := plan_eq_ok.mp planned
  obtain ⟨otherDraft, otherDrafted, statement, columns, searches⟩ :=
    drafted.exists_withPhrase phrase
  refine plan_eq_ok.mpr ⟨otherDraft, parameters, otherDrafted, by rw [statement, listed], ?_⟩
  have sameRows : rows otherDraft parameters = rows draft parameters := by
    rw [rows, rows, statement, columns]
  rw [QueryPlan.withPhrase, searches, steps, steps, searches, sameRows]
  cases draft.searches <;> rfl

end Planner

namespace Database

/-- Where the service answers the same to another text, a run gives the same. -/
theorem result_run_withPhrase
    [NumeralReading]
    {plan : QueryPlan}
    {phrase : Expr.SearchPhrase}
    {database : Database σ}
    {other : Database τ}
    {parameters otherParameters : Parameters}
    (sameStore : other.store = database.store)
    (agree : ∀ name ∈ plan.steps.rowStep.callerNames,
      otherParameters.get? name = parameters.get? name)
    (sameAnswer : ∀ search, plan.steps.search? = some search →
      (search.withPhrase phrase).answer other.service (.start otherParameters) other.world =
        search.answer database.service (.start parameters) database.world) :
    (other.run (plan.withPhrase phrase) otherParameters).1 =
      (database.run plan parameters).1 := by
  have startAgrees : RunContext.AgreesOn plan.steps.rowStep.callerNames
      (.start parameters) (.start otherParameters) := ⟨agree, rfl⟩
  rw [result_run, result_run, QueryPlan.search?_withPhrase, QueryPlan.rowStep_withPhrase,
    sameStore]
  cases isSearch : plan.steps.search? with
  | none => exact RowStep.run_congr startAgrees database.store
  | some search =>
      simp only [Option.map_some, sameAnswer search isSearch]
      cases search.answer database.service (.start parameters) database.world with
      | error cause => rfl
      | ok keys =>
          simp only [Except.ok_bind, SearchStep.putKeys, SearchStep.withPhrase]
          cases keys.mapM fun key => Value.ofKey key search.keyKind with
          | error cause => rfl
          | ok values =>
              exact RowStep.run_congr (startAgrees.putSet search.parameter values) database.store

end Database

namespace QueryPlan

/-- Two plans that differ in the text of their search only, and whose runs do no more. -/
structure DiffersInPhrase
    [NumeralReading]
    (plan other : QueryPlan)
    (phrase : Expr.SearchPhrase) :
    Prop where
  sql : other.sql = plan.sql
  parameters : other.parameters = plan.parameters
  columns : other.columns = plan.columns
  summary : other.summary = plan.summary
  otherwise : other = plan.withPhrase phrase
  /-- If the service answers the same to both texts, the runs give the same. -/
  runs : ∀ {σ τ : Type} (database : Database σ) (otherDatabase : Database τ)
    (parameters otherParameters : Parameters), otherDatabase.store = database.store →
    (∀ name, ⟨name, .caller⟩ ∈ plan.parameters →
      otherParameters.get? name = parameters.get? name) →
    (∀ search otherSearch, plan.steps.search? = some search →
      other.steps.search? = some otherSearch →
      otherSearch.answer otherDatabase.service (.start otherParameters) otherDatabase.world =
        search.answer database.service (.start parameters) database.world) →
    (otherDatabase.run other otherParameters).1 = (database.run plan parameters).1

/-- A plan with another phrase differs from the plan in nothing else. -/
theorem differsInPhrase_withPhrase
    [NumeralReading]
    (plan : QueryPlan)
    (phrase : Expr.SearchPhrase) :
    plan.DiffersInPhrase (plan.withPhrase phrase) phrase where
  sql := by rw [sql, rowStep_withPhrase]; rfl
  parameters := by rw [parameters, rowStep_withPhrase]; rfl
  columns := by rw [columns, rowStep_withPhrase]; rfl
  summary := plan.summary_withPhrase phrase
  otherwise := rfl
  runs := by
    intro σ τ database otherDatabase parameters otherParameters sameStore agree sameAnswer
    refine Database.result_run_withPhrase sameStore
      (fun name isName => agree name (RowStep.mem_callerNames.mp isName)) ?_
    intro search isSearch
    exact sameAnswer search _ isSearch (by rw [search?_withPhrase, isSearch]; rfl)

end QueryPlan

namespace Planner

/--
The text of a search never gets into a statement: whatever two phrases stand in the
search call of a query that has a plan, the two plans differ in the phrase of the
search only, and runs depend on it only through the answer of the service.
-/
theorem differsInPhrase_of_plan
    [NumeralReading]
    {model : Model}
    {query : Query}
    {plan : QueryPlan}
    (planned : (searching model).plan query = .ok plan)
    (first second : Expr.SearchPhrase) :
    ∃ firstPlan secondPlan,
      (searching model).plan (query.withPhrase first) = .ok firstPlan ∧
      (searching model).plan (query.withPhrase second) = .ok secondPlan ∧
      firstPlan.DiffersInPhrase secondPlan second := by
  refine ⟨_, _, plan_withPhrase planned first, plan_withPhrase planned second, ?_⟩
  rw [← plan.withPhrase_withPhrase second first]
  exact QueryPlan.differsInPhrase_withPhrase _ second

/-- A text and a parameter in the search of a query that also compares with both. -/
theorem differsInPhrase_ordersOfFound :
    ∃ plan firstPlan secondPlan, (searching .shop).plan .ordersOfFound = .ok plan ∧
      (searching .shop).plan (Query.ordersOfFound.withPhrase (.literal "acme")) = .ok firstPlan ∧
      (searching .shop).plan (Query.ordersOfFound.withPhrase (.parameter "name")) =
        .ok secondPlan ∧
      firstPlan.DiffersInPhrase secondPlan (.parameter "name") := by
  have isPlanned : ((searching .shop).plan .ordersOfFound).toOption.isSome := by
    decide +kernel
  obtain ⟨plan, planned⟩ := Except.exists_eq_ok_iff.mpr isPlanned
  obtain ⟨firstPlan, secondPlan, firstPlanned, secondPlanned, differ⟩ :=
    differsInPhrase_of_plan planned (.literal "acme") (.parameter "name")
  exact ⟨plan, firstPlan, secondPlan, planned, firstPlanned, secondPlanned, differ⟩

end Planner

end FullTextQuery
