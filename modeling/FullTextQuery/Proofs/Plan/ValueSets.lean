import FullTextQuery.Binary64.Nearest
import FullTextQuery.Database.Basic
import FullTextQuery.Extension.Search
import FullTextQuery.Proofs.Model.Built
import FullTextQuery.Proofs.NameMap
import FullTextQuery.Proofs.Outcome

namespace FullTextQuery

/-!
# Value sets are found before they are read

Whatever extensions a planner has, the last check of planning makes sure that
the row step of a plan reads no value set but the one that the search step
finds.  A run puts this set into its context before the row step begins, so no
look-up of a value set fails.
-/

namespace Error

/-- Whether a failure says that the parts of the library broke a promise to each other. -/
def IsInvariant
    (e : Error) :
    Prop :=
  ∃ cause, e = .invariant cause

end Error

namespace RunContext

variable {context : RunContext} {name : String}

/-- A value set is there exactly if it was put there. -/
theorem valueSet_eq_ok
    {values : List Value} :
    context.valueSet name = .ok values ↔ context.valueSets.get? name = some values := by
  unfold valueSet
  cases context.valueSets.get? name <;> simp

/-- A value set that was put into a context can be looked up. -/
theorem valueSet_putSet
    (values : List Value) :
    (context.putSet name values).valueSet name = .ok values := by
  simp [valueSet_eq_ok, putSet, NameMap.get?_insert]

end RunContext

namespace RowStep

/-- Whether a context has every value set that a row step reads. -/
def SetsFound
    (step : RowStep)
    (context : RunContext) :
    Prop :=
  ∀ parameter ∈ step.parameters, parameter.supplier = .search →
    ∃ values, context.valueSet parameter.name = .ok values

variable {step : RowStep} {context : RunContext}

/-- With all value sets found, no binding is missing but for a value of the caller. -/
theorem failsOnlyBy_bindings
    (found : step.SetsFound context) :
    (step.bindings context).FailsOnlyBy (¬ Error.IsInvariant ·) := by
  refine .foldlM (fun parameter isRead earlier => .map ?_) _
  unfold binding
  cases supplier : parameter.supplier with
  | caller =>
      refine .map (.mapError fun cause => ?_)
      rintro ⟨_, ⟨⟩⟩
  | search =>
      obtain ⟨values, isFound⟩ := found parameter isRead supplier
      rw [isFound]
      exact .ok

/-- With all value sets found, a row step breaks no promise. -/
theorem failsOnlyBy_run
    [NumeralReading]
    (found : step.SetsFound context)
    (store : Store) :
    (step.run store context).FailsOnlyBy (¬ Error.IsInvariant ·) := by
  have ofStore : ∀ cause : StoreError, ¬ Error.IsInvariant (.store cause) := by
    rintro cause ⟨_, ⟨⟩⟩
  exact .bind (failsOnlyBy_bindings found) fun _ _ =>
    .bind (.mapError ofStore) fun _ _ => .mapError ofStore

end RowStep

namespace SearchStep

variable
  {step : SearchStep} {service : SearchService σ} {context found : RunContext} {world after : σ}

/-- A search step that succeeds leaves its value set behind. -/
theorem exists_valueSet_of_run
    (succeeded : step.run service context world = (.ok found, after)) :
    ∃ values, found.valueSet step.parameter = .ok values := by
  unfold run at succeeded
  cases isText : step.text context with
  | error cause =>
      simp [isText] at succeeded
  | ok text =>
      rcases answered : service.search step.index text world with ⟨e | keys, next⟩
      · simp [isText, answered] at succeeded
      · simp only [isText, answered, Prod.mk.injEq, Except.mapError_eq_ok, putKeys,
          Except.bind_eq_ok, Except.pure_eq_ok, Except.ok.injEq] at succeeded
        obtain ⟨⟨values, _, rfl⟩, _⟩ := succeeded
        exact ⟨values, RunContext.valueSet_putSet values⟩

/-- A search step that reports a broken promise passes on what the service answered. -/
theorem exists_answer_of_run_eq_invariant
    {cause : InvariantError}
    (failed : step.run service context world = (.error (.invariant cause), after)) :
    ∃ text, step.text context = .ok text ∧
      service.search step.index text world = (.error (.invariant cause), after) := by
  unfold run at failed
  cases isText : step.text context with
  | error cause =>
      simp [isText] at failed
  | ok text =>
      rcases answered : service.search step.index text world with ⟨e | keys, next⟩
      · simp only [isText, answered, Prod.mk.injEq, Except.error.injEq] at failed
        obtain ⟨rfl, rfl⟩ := failed
        exact ⟨text, rfl, answered⟩
      · simp [isText, answered] at failed

end SearchStep

namespace Steps

/-- Whether the row step reads no value set but the one that the search step finds. -/
def Supplied
    (steps : Steps) :
    Prop :=
  ∀ parameter ∈ steps.rowStep.parameters, parameter.supplier = .search →
    ∃ search, steps.search? = some search ∧ search.parameter = parameter.name

variable {steps : Steps}

/-- The value sets that steps find are those of their search. -/
theorem finds_iff
    {name : String} :
    steps.finds name = true ↔ ∃ search, steps.search? = some search ∧ search.parameter = name := by
  unfold finds
  cases steps.search? <;> simp

/-- What the last check of planning has made sure of when it passes. -/
theorem of_checkValueSets
    {predicate? : Option RelExpr}
    (passed : steps.checkValueSets predicate? = .ok ()) :
    (predicate?.toList.flatMap RelExpr.memberships).length ≤ 1 ∧
      (∀ test ∈ predicate?.toList.flatMap RelExpr.memberships,
        steps.finds test.parameter = true) ∧
      ∀ parameter ∈ steps.rowStep.parameters, parameter.supplier = .search →
        steps.finds parameter.name = true := by
  have allFound : steps.rowStep.parameters.find? (fun parameter =>
        parameter.supplier == .search && !steps.finds parameter.name) = none →
      ∀ parameter ∈ steps.rowStep.parameters, parameter.supplier = .search →
        steps.finds parameter.name = true := by
    intro noneMissing
    simpa using noneMissing
  cases predicate? with
  | none =>
      simp only [checkValueSets, List.length_nil, Nat.not_lt_zero, ↓reduceIte] at passed
      split at passed
      · cases passed
      · exact ⟨by simp, by simp, allFound ‹_›⟩
  | some predicate =>
      simp only [checkValueSets, Option.toList_some, List.flatMap_singleton] at passed ⊢
      match tests : predicate.memberships with
      | [] =>
          simp only [tests, List.length_nil, Nat.not_lt_zero, ↓reduceIte] at passed
          split at passed
          · cases passed
          · exact ⟨by simp, by simp, allFound ‹_›⟩
      | [test] =>
          simp only [tests, List.length_singleton, Nat.lt_irrefl, ↓reduceIte] at passed
          split at passed
          · cases passed
          · rename_i isFound
            split at passed
            · cases passed
            · exact ⟨by simp, by simpa using isFound, allFound ‹_›⟩
      | _ :: _ :: _ =>
          simp [tests] at passed

/-- Steps that pass the last check of planning read only what they find. -/
theorem supplied_of_checkValueSets
    {predicate? : Option RelExpr}
    (passed : steps.checkValueSets predicate? = .ok ()) :
    steps.Supplied := by
  intro parameter isRead supplier
  exact finds_iff.mp ((of_checkValueSets passed).2.2 parameter isRead supplier)

/-- Where the search step of such steps has succeeded, the row step has its value sets. -/
theorem Supplied.setsFound
    (supplied : steps.Supplied)
    {search : SearchStep}
    (isSearch : steps.search? = some search)
    {service : SearchService σ}
    {context found : RunContext}
    {world after : σ}
    (succeeded : search.run service context world = (.ok found, after)) :
    steps.rowStep.SetsFound found := by
  intro parameter isRead supplier
  obtain ⟨_, same, isParameter⟩ := supplied parameter isRead supplier
  obtain rfl := Option.some.inj (isSearch.symm.trans same)
  exact isParameter ▸ SearchStep.exists_valueSet_of_run succeeded

/-- Without a search step, such steps read no value sets. -/
theorem Supplied.setsFound_of_none
    (supplied : steps.Supplied)
    (noSearch : steps.search? = none)
    (context : RunContext) :
    steps.rowStep.SetsFound context := by
  intro parameter isRead supplier
  obtain ⟨_, isSearch, _⟩ := supplied parameter isRead supplier
  cases noSearch.symm.trans isSearch

/--
A run of such steps breaks no promise itself: what it reports as one, the
search service or the connection to the store did.
-/
theorem Supplied.exists_of_run_eq_invariant
    [NumeralReading]
    (supplied : steps.Supplied)
    {service : SearchService σ}
    {connect : σ → Except Error Store × σ}
    {context : RunContext}
    {world : σ}
    {cause : InvariantError}
    (failed : (steps.run service connect context world).result = .error (.invariant cause)) :
    (∃ search text, steps.search? = some search ∧ search.text context = .ok text ∧
      (service.search search.index text world).1 = .error (.invariant cause)) ∨
      ∃ before, (connect before).1 = .error (.invariant cause) := by
  have inRows : ∀ {context before}, steps.rowStep.SetsFound context →
      (steps.runRows connect context before).result = .error (.invariant cause) →
      (connect before).1 = .error (.invariant cause) := by
    intro context before found rowsFailed
    unfold runRows at rowsFailed
    rcases connected : connect before with ⟨e | store, next⟩
    · simpa [connected] using rowsFailed
    · simp only [connected] at rowsFailed
      exact absurd ⟨cause, rfl⟩ (RowStep.failsOnlyBy_run found store _ rowsFailed)
  unfold run at failed
  cases isSearch : steps.search? with
  | none =>
      simp only [isSearch] at failed
      exact .inr ⟨world, inRows (supplied.setsFound_of_none isSearch context) failed⟩
  | some search =>
      rcases searched : search.run service context world with ⟨e | found, next⟩
      · simp only [isSearch, searched, Except.error.injEq] at failed
        obtain rfl := failed
        obtain ⟨text, isText, answered⟩ :=
          SearchStep.exists_answer_of_run_eq_invariant searched
        exact .inl ⟨search, text, rfl, isText, by rw [answered]⟩
      · simp only [isSearch, searched] at failed
        exact .inr ⟨next, inRows (supplied.setsFound isSearch searched) failed⟩

end Steps

namespace QueryPlan

/-- What a plan promises about the value sets that its statement reads. -/
structure FindsWhatItReads
    [NumeralReading]
    (plan : QueryPlan) :
    Prop where
  supplied : ∀ parameter ∈ plan.parameters, parameter.supplier = .search →
    ∃ search, plan.steps.search? = some search ∧ search.parameter = parameter.name
  found : ∀ {σ : Type} {service : SearchService σ} {parameters : Parameters} {world : σ}
    {search : SearchStep} {context : RunContext} {after : σ},
    plan.steps.search? = some search →
    search.run service (.start parameters) world = (.ok context, after) →
    ∀ parameter ∈ plan.parameters, parameter.supplier = .search →
      ∃ values, context.valueSet parameter.name = .ok values
  passesOn : ∀ {σ : Type} (database : Database σ) (parameters : Parameters)
    {cause : InvariantError},
    (database.run plan parameters).1 = .error (.invariant cause) →
    ∃ search text, plan.steps.search? = some search ∧
      search.text (.start parameters) = .ok text ∧
      (database.service.search search.index text database.world).1 = .error (.invariant cause)

end QueryPlan

namespace Search

/-- Turns the call `among(x, 'set')` into a membership test, with no search on record. -/
def lowerAmong : LoweringRule :=
  fun _ e operands =>
    match e, operands with
    | .call "among" [_, .literal (.text valueSet)], x :: _ => do
        return some (.membership (← x) valueSet 0)
    | _, _ => pure none

end Search

namespace Query

/-- The customers that a search finds, each beside the question whether the search finds it. -/
def foundAmong : Query where
  source := ⟨"c", "Customer"⟩
  filters := [.search "c" "acme"]
  projection := [
    .member "c" "Name",
    .call "among" [.member "c" "Id", .literal (.text "search_ids_1")]]

end Query

namespace Planner

/-- A planner with a rule that puts nothing on record, beside the search extension. -/
def searchingAmong : Planner :=
  ⟨.shop, .withSearch { lowering := [Search.lowerAmong] }⟩

/-- With the further rules in place the query has a plan. -/
theorem exists_plan_foundAmong :
    ∃ plan, searchingAmong.plan .foundAmong = .ok plan := by
  have isPlanned : (searchingAmong.plan .foundAmong).toOption.isSome := by
    decide +kernel
  exact Except.exists_eq_ok_iff.mpr isPlanned

/-- A plan is made of a draft whose predicate has passed the last check of planning. -/
theorem exists_draft_of_plan
    {planner : Planner}
    {query : Query}
    {plan : QueryPlan}
    (planned : planner.plan query = .ok plan) :
    ∃ draft, planner.draft query = .ok draft ∧
      plan.steps.checkValueSets draft.statement.predicate? = .ok () := by
  simp only [Planner.plan, Except.bind_eq_ok, Except.mapError_eq_ok] at planned
  obtain ⟨draft, drafted, _, _, steps, _, _, passed, ⟨⟩⟩ := planned
  exact ⟨draft, drafted, passed⟩

/--
With any extensions, a plan finds every value set before its statement reads
it.  A run reports a broken promise only where the search service answers one.
-/
theorem findsWhatItReads_of_plan
    [NumeralReading]
    {planner : Planner}
    {query : Query}
    {plan : QueryPlan}
    (planned : planner.plan query = .ok plan) :
    plan.FindsWhatItReads := by
  obtain ⟨_, _, passed⟩ := exists_draft_of_plan planned
  have supplied := Steps.supplied_of_checkValueSets passed
  refine ⟨supplied, fun isSearch succeeded => supplied.setsFound isSearch succeeded, ?_⟩
  intro σ database parameters cause failed
  rcases supplied.exists_of_run_eq_invariant failed with answered | ⟨before, refused⟩
  · exact answered
  · cases refused

/-- The plan of the query finds the value sets that its statement reads. -/
theorem findsWhatItReads_foundAmong :
    ∃ plan, searchingAmong.plan .foundAmong = .ok plan ∧ plan.FindsWhatItReads := by
  obtain ⟨plan, planned⟩ := exists_plan_foundAmong
  exact ⟨plan, planned, findsWhatItReads_of_plan planned⟩

end Planner

end FullTextQuery
