import FullTextQuery.Proofs.Plan.ValueSets
import FullTextQuery.Proofs.Sql.Parameters

namespace FullTextQuery

/-!
# What a row step binds and returns

If every parameter of a row step is supplied, each is bound to what is supplied
for it, since no name is listed twice.  A row with a cell for every column
becomes a record of all of them.
-/

namespace RunContext

variable {context : RunContext} {name : String}

/-- A parameter is supplied with the value that the caller gives it. -/
theorem supplied_eq_ok
    {value : Value} :
    context.supplied name = .ok value ↔ context.parameters.get? name = some value := by
  unfold supplied
  cases context.parameters.get? name <;> simp

end RunContext

namespace RowStep

variable {step : RowStep} {context : RunContext} {name : String}

/-- A parameter of the caller is bound to a single value. -/
theorem binding_caller_eq_ok
    {bound : Store.Binding} :
    binding context ⟨name, .caller⟩ = .ok bound ↔
      ∃ value, context.parameters.get? name = some value ∧ .single value = bound := by
  simp [binding, RunContext.supplied_eq_ok]

/-- A parameter of the search is bound to the value set of its name. -/
theorem binding_search_eq_ok
    {bound : Store.Binding} :
    binding context ⟨name, .search⟩ = .ok bound ↔
      ∃ values, context.valueSets.get? name = some values ∧ .array values = bound := by
  simp [binding, RunContext.valueSet_eq_ok]

/-- If all parameters are supplied, each is bound to what is supplied for it. -/
theorem exists_bindings
    (distinct : Sql.Distinct step.parameters)
    (supplied : ∀ parameter ∈ step.parameters, ∃ bound, binding context parameter = .ok bound) :
    ∃ bindings, step.bindings context = .ok bindings ∧
      ∀ parameter ∈ step.parameters, ∀ bound, binding context parameter = .ok bound →
        bindings.get? parameter.name = some bound := by
  -- What was bound earlier stays bound, unless it has the name of a later parameter.
  have bindAll : ∀ (parameters : List StatementParameter), Sql.Distinct parameters →
      (∀ parameter ∈ parameters, ∃ bound, binding context parameter = .ok bound) →
      ∀ earlier : Store.Bindings, ∃ after,
        parameters.foldlM (fun earlier parameter =>
          (binding context parameter).map (earlier.insert parameter.name)) earlier = .ok after ∧
        (∀ parameter ∈ parameters, ∀ bound, binding context parameter = .ok bound →
          after.get? parameter.name = some bound) ∧
        ∀ name ∉ parameters.map (·.name), after.get? name = earlier.get? name := by
    intro parameters
    induction parameters with
    | nil =>
        intro _ _ earlier
        exact ⟨earlier, rfl, by simp, by simp⟩
    | cons parameter rest inductionHypothesis =>
        intro distinct supplied earlier
        obtain ⟨notRest, restDistinct⟩ := List.nodup_cons.mp distinct
        obtain ⟨⟨bound, isBound⟩, restSupplied⟩ := List.forall_mem_cons.mp supplied
        obtain ⟨after, bindRest, restBound, others⟩ := inductionHypothesis restDistinct restSupplied
          (earlier.insert parameter.name bound)
        refine ⟨after, ?_, ?_, ?_⟩
        · rw [List.foldlM_cons, isBound]
          exact bindRest
        · refine List.forall_mem_cons.mpr ⟨fun other isOther => ?_, restBound⟩
          obtain rfl : bound = other := Except.ok.inj (isBound.symm.trans isOther)
          rw [others _ notRest, NameMap.get?_insert, if_pos rfl]
        · intro name notName
          obtain ⟨notFirst, notRest⟩ := not_or.mp (List.mem_cons.not.mp notName)
          rw [others name notRest, NameMap.get?_insert, if_neg notFirst]
  obtain ⟨bindings, areBound, each, _⟩ := bindAll step.parameters distinct supplied .empty
  exact ⟨bindings, areBound, each⟩

/-- Parameters are bound only if each of them is supplied. -/
theorem exists_binding_of_bindings
    {bindings : Store.Bindings}
    (areBound : step.bindings context = .ok bindings) :
    ∀ parameter ∈ step.parameters, ∃ bound, binding context parameter = .ok bound := by
  intro parameter isParameter
  obtain ⟨_, _, success⟩ := Except.exists_of_foldlM_eq_ok areBound parameter isParameter
  obtain ⟨bound, isBound, _⟩ := Except.map_eq_ok.mp success
  exact ⟨bound, isBound⟩

/-- The record of cells, one for each column. -/
def recordOf
    (step : RowStep)
    (cells : List Store.Cell) :
    Record where
  fields := List.zipWith
    (fun column cell => (column.name, cellValue column.kind? cell)) step.columns cells

/-- A row with a cell for every column becomes a record. -/
theorem toRecord_eq_ok
    {cells : List Store.Cell}
    (sameLength : cells.length = step.columns.length) :
    step.toRecord cells = .ok (step.recordOf cells) := by
  have named : ∀ (columns : List ResultColumn) (cells : List Store.Cell) (index : Nat),
      cells.length = columns.length →
      namedValues index columns cells = .ok (List.zipWith
        (fun column cell => (column.name, cellValue column.kind? cell)) columns cells) := by
    intro columns
    induction columns with
    | nil =>
        intro cells index _
        rfl
    | cons column columns inductionHypothesis =>
        intro cells index sameLength
        cases cells with
        | nil => simp at sameLength
        | cons cell cells =>
            rw [namedValues, inductionHypothesis cells (index + 1) (by simpa using sameLength)]
            rfl
  rw [toRecord, named step.columns cells 0 sameLength]
  rfl

variable [NumeralReading]

/-- Rows with a cell for every column become the records of all of them. -/
theorem run_eq_ok
    {store : Store}
    {bindings : Store.Bindings}
    {results : List (List Store.Cell)}
    (areBound : step.bindings context = .ok bindings)
    (selects : store.select step.sql bindings = .ok results)
    (sameLength : ∀ cells ∈ results, cells.length = step.columns.length) :
    step.run store context = .ok (results.map step.recordOf) := by
  have shaped : results.mapM step.toRecord = .ok (results.map step.recordOf) := by
    rw [Except.mapM_eq_ok, List.forall₂_map_right_iff, List.forall₂_same]
    exact fun cells isResult => toRecord_eq_ok (sameLength cells isResult)
  rw [run, areBound, Except.ok_bind, selects]
  simp [Except.mapError, shaped]

/-- A row step whose statement the store refuses fails with the error of the store. -/
theorem run_eq_error
    {store : Store}
    {bindings : Store.Bindings}
    {cause : StoreError}
    (areBound : step.bindings context = .ok bindings)
    (refused : store.select step.sql bindings = .error cause) :
    step.run store context = .error (.store cause) := by
  rw [run, areBound, Except.ok_bind, refused]
  rfl

/-- A row step that has run has bound its parameters and selected rows. -/
theorem exists_select_of_run
    {store : Store}
    {records : List Record}
    (success : step.run store context = .ok records) :
    ∃ bindings results, step.bindings context = .ok bindings ∧
      store.select step.sql bindings = .ok results := by
  obtain ⟨bindings, areBound, rest⟩ := Except.bind_eq_ok.mp success
  obtain ⟨results, selects, _⟩ := Except.bind_eq_ok.mp rest
  exact ⟨bindings, results, areBound, Except.mapError_eq_ok.mp selects⟩

end RowStep

namespace Steps

/-- The context in which the row step begins if the search has found some values. -/
def contextOf
    (steps : Steps)
    (parameters : Parameters)
    (found : List Value) :
    RunContext :=
  match steps.search? with
  | none => .start parameters
  | some search => (RunContext.start parameters).putSet search.parameter found

@[simp] theorem contextOf_parameters
    (steps : Steps)
    (parameters : Parameters)
    (found : List Value) :
    (steps.contextOf parameters found).parameters = parameters := by
  unfold contextOf
  split <;> rfl

end Steps

namespace Database

/-- Whether some values are those of the keys that the service answers to a plan's search. -/
def Finds
    (database : Database σ)
    (plan : QueryPlan)
    (parameters : Parameters)
    (found : List Value) :
    Prop :=
  match plan.steps.search? with
  | none => found = []
  | some search =>
      ∃ text keys, search.text (.start parameters) = .ok text ∧
        (database.service.search search.index text database.world).1 = .ok keys ∧
        keys.mapM (fun key => Value.ofKey key search.keyKind) = .ok found

/-- With its values found, a run does what the row step does behind the search. -/
theorem run_eq_of_finds
    [NumeralReading]
    {database : Database σ}
    {plan : QueryPlan}
    {parameters : Parameters}
    {found : List Value}
    (finds : database.Finds plan parameters found) :
    (database.run plan parameters).1 =
      plan.steps.rowStep.run database.store (plan.steps.contextOf parameters found) := by
  unfold Finds at finds
  simp only [run, Steps.run, Steps.contextOf]
  cases isSearch : plan.steps.search? with
  | none => rfl
  | some search =>
      rw [isSearch] at finds
      obtain ⟨text, keys, isText, answered, converted⟩ := finds
      rcases asked : database.service.search search.index text database.world with ⟨answer, after⟩
      obtain rfl : answer = .ok keys := by rw [← answered, asked]
      simp only [SearchStep.run, isText, asked, SearchStep.putKeys, converted, Except.ok_bind]
      rfl

end Database

end FullTextQuery
