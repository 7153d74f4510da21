import FullTextQuery.Proofs.Plan.NamedParameters
import FullTextQuery.Proofs.Planner.AlikeStatements

namespace FullTextQuery

/-!
# Runs that come to the same

Two plans that ask the search service the same run alike if their statements, with what
each of them binds, select the same rows.
-/

namespace RowStep

variable {step other : RowStep} {context : RunContext} {bindings otherBindings : Store.Bindings}

/-- What a row step binds has the names of its parameters. -/
theorem contains_bindings_iff
    (areBound : step.bindings context = .ok bindings)
    (name : String) :
    bindings.contains name = true ↔ name ∈ step.parameters.map (·.name) := by
  -- The induction is on the parameters, behind what was bound earlier.
  have bound : ∀ (parameters : List StatementParameter) (earlier : Store.Bindings),
      parameters.foldlM (fun earlier parameter =>
          (binding context parameter).map (earlier.insert parameter.name)) earlier =
        .ok bindings →
      (bindings.contains name = true ↔
        earlier.contains name = true ∨ name ∈ parameters.map (·.name)) := by
    intro parameters
    induction parameters with
    | nil =>
        intro earlier isLast
        obtain rfl := Except.ok.inj isLast
        simp
    | cons parameter rest inductionHypothesis =>
        intro earlier areBound
        obtain ⟨between, firstBound, restBound⟩ := Except.bind_eq_ok.mp areBound
        obtain ⟨value, _, rfl⟩ := Except.map_eq_ok.mp firstBound
        rw [inductionHypothesis _ restBound, List.map_cons, List.mem_cons, ← or_assoc,
          NameMap.contains, NameMap.contains, NameMap.get?_insert]
        by_cases isName : name = parameter.name
        · simp [isName]
        · simp [isName]
  simpa [NameMap.contains] using bound step.parameters .empty areBound

/-- Under the name of a parameter, a row step binds what is supplied for it. -/
theorem get?_bindings
    (distinct : Sql.Distinct step.parameters)
    (areBound : step.bindings context = .ok bindings)
    {parameter : StatementParameter}
    (isParameter : parameter ∈ step.parameters) :
    ∃ bound, binding context parameter = .ok bound ∧
      bindings.get? parameter.name = some bound := by
  have supplied := exists_binding_of_bindings areBound
  obtain ⟨_, areSame, each⟩ := exists_bindings distinct supplied
  obtain rfl := Except.ok.inj (areSame.symm.trans areBound)
  obtain ⟨bound, isBound⟩ := supplied parameter isParameter
  exact ⟨bound, isBound, each parameter isParameter bound isBound⟩

/-- Row steps that have a parameter in common, or neither has one, bind the same under a name. -/
theorem get?_bindings_congr
    (distinct : Sql.Distinct step.parameters)
    (otherDistinct : Sql.Distinct other.parameters)
    (areBound : step.bindings context = .ok bindings)
    (otherBound : other.bindings context = .ok otherBindings)
    {name : String}
    (common : ∀ supplier, ⟨name, supplier⟩ ∈ other.parameters ↔
      ⟨name, supplier⟩ ∈ step.parameters) :
    otherBindings.get? name = bindings.get? name := by
  by_cases isName : name ∈ step.parameters.map (·.name)
  · obtain ⟨⟨_, supplier⟩, isParameter, rfl⟩ := List.mem_map.mp isName
    obtain ⟨bound, isBound, here⟩ := get?_bindings distinct areBound isParameter
    obtain ⟨_, isSame, there⟩ :=
      get?_bindings otherDistinct otherBound ((common supplier).mpr isParameter)
    rw [here, there, Except.ok.inj (isSame.symm.trans isBound)]
  · have notOther : name ∉ other.parameters.map (·.name) := by
      intro isOther
      obtain ⟨⟨_, supplier⟩, isParameter, rfl⟩ := List.mem_map.mp isOther
      exact isName (List.mem_map_of_mem ((common supplier).mp isParameter))
    rw [← contains_bindings_iff areBound, NameMap.contains, Option.not_isSome_iff_eq_none]
      at isName
    rw [← contains_bindings_iff otherBound, NameMap.contains, Option.not_isSome_iff_eq_none]
      at notOther
    rw [isName, notOther]

/-- Row steps with the same columns run alike if both can bind, and select, or neither. -/
theorem related_run
    [NumeralReading]
    {lenient : Prop}
    {store : Store}
    (sameColumns : other.columns = step.columns)
    (bindAlike : (∃ bindings, other.bindings context = .ok bindings) ↔
      ∃ bindings, step.bindings context = .ok bindings)
    (selectAlike : ∀ bindings otherBindings, step.bindings context = .ok bindings →
      other.bindings context = .ok otherBindings →
      Except.Related lenient (fun results otherResults => otherResults = results)
        (store.select step.sql bindings) (store.select other.sql otherBindings)) :
    Except.Related lenient (fun records otherRecords => otherRecords = records)
      (step.run store context) (other.run store context) := by
  have bound : Except.Related lenient (fun bindings otherBindings =>
        step.bindings context = .ok bindings ∧ other.bindings context = .ok otherBindings)
      (step.bindings context) (other.bindings context) :=
    ⟨fun areBound otherBound => ⟨areBound, otherBound⟩, fun _ => bindAlike.symm⟩
  refine bound.bind fun bindings otherBindings ⟨areBound, otherBound⟩ => ?_
  refine (selectAlike bindings otherBindings areBound otherBound).mapError.bind ?_
  rintro results _ rfl
  have sameRecords : other.toRecord = step.toRecord := by
    funext cells
    rw [toRecord, toRecord, sameColumns]
  rw [sameRecords]
  refine .refl ?_ _
  exact fun _ => rfl

end RowStep

namespace SearchStep

/-- Two search steps that do the same in a context. -/
structure Alike
    (context : RunContext)
    (step other : SearchStep) :
    Prop where
  parameter : other.parameter = step.parameter
  index : other.index = step.index
  keyKind : other.keyKind = step.keyKind
  text : other.text context = step.text context

/-- Searches that are alike leave the same context and the same world behind. -/
theorem Alike.run_eq
    {context : RunContext}
    {step other : SearchStep}
    (alike : step.Alike context other)
    (service : SearchService σ)
    (world : σ) :
    other.run service context world = step.run service context world := by
  have sameKeys : ∀ keys, other.putKeys context keys = step.putKeys context keys := by
    intro keys
    rw [putKeys, putKeys, alike.keyKind, alike.parameter]
  rw [run, run, alike.text, alike.index]
  simp only [sameKeys]

/-- A search step leaves the values of the caller as they are. -/
theorem parameters_of_run
    {step : SearchStep}
    {service : SearchService σ}
    {context found : RunContext}
    {world : σ}
    (ran : (step.run service context world).1 = .ok found) :
    found.parameters = context.parameters := by
  rw [result_run] at ran
  obtain ⟨keys, _, areKeys⟩ := Except.bind_eq_ok.mp ran
  obtain ⟨values, _, rfl⟩ := Except.map_eq_ok.mp (Except.mapError_eq_ok.mp areKeys)
  rfl

end SearchStep

namespace Database

variable {plan other : QueryPlan} {parameters : Parameters} {lenient : Prop}

/-- Plans with search steps that do the same run alike if their row steps do. -/
theorem related_run
    [NumeralReading]
    (database : Database σ)
    (search : Option.Rel (SearchStep.Alike (.start parameters)) plan.steps.search?
      other.steps.search?)
    (rows : ∀ context, context.parameters = parameters →
      Except.Related lenient (fun records otherRecords => otherRecords = records)
      (plan.steps.rowStep.run database.store context)
      (other.steps.rowStep.run database.store context)) :
    Except.Related lenient (fun records otherRecords => otherRecords = records)
        (database.run plan parameters).1 (database.run other parameters).1 ∧
      (database.run other parameters).2 = (database.run plan parameters).2 := by
  simp only [run, Steps.run]
  generalize plan.steps.search? = search?, other.steps.search? = otherSearch? at search
  cases search with
  | none => exact ⟨rows _ rfl, rfl⟩
  | @some step other alike =>
      simp only [alike.run_eq]
      have keeps : ∀ {found : RunContext},
          (step.run database.service (.start parameters) database.world).1 = .ok found →
          found.parameters = parameters := SearchStep.parameters_of_run
      generalize step.run database.service (.start parameters) database.world = ran at keeps
      obtain ⟨e | found, after⟩ := ran
      · exact ⟨.error, rfl⟩
      · exact ⟨rows found (keeps rfl), rfl⟩

end Database

namespace Planner

/-- A query that is planned and run returns what comes of it. -/
theorem exists_plan_of_run
    [NumeralReading]
    {model : Model}
    {query : Query}
    {database : Database σ}
    {values : Parameters}
    {records : List Record}
    (returns : ((searching model).plan query).toOption.map (fun plan =>
      (database.run plan values).1.toOption) = some (some records)) :
    ∃ plan, (searching model).plan query = .ok plan ∧
      (database.run plan values).1 = .ok records := by
  obtain ⟨plan, isPlan, isResult⟩ := Option.map_eq_some_iff.mp returns
  exact ⟨plan, Except.toOption_eq_some.mp isPlan, Except.toOption_eq_some.mp isResult⟩

variable {model : Model} {query : Query} {draft : Draft} {parameters : List StatementParameter}

/-- The row step of a draft binds what its statement uses. -/
theorem Drafted.binds
    (drafted : Drafted model query draft)
    (listed : Sql.listUses [] draft.statement.uses = .ok parameters)
    {context : RunContext}
    {bindings : Store.Bindings}
    (areBound : (rows draft parameters).bindings context = .ok bindings) :
    draft.statement.Binds bindings where
  names := by
    intro name
    have isListed := (Sql.listUses_eq_ok Sql.distinct_nil listed).2
    rw [RowStep.contains_bindings_iff areBound]
    simp [rows, isListed]
  plain := drafted.plain

/-- Drafts with the same columns run alike if their statements come to the same. -/
theorem Drafted.related_run
    [NumeralReading]
    {lenient : Prop}
    {store : Store}
    {context : RunContext}
    {otherQuery : Query}
    {otherDraft : Draft}
    {otherParameters : List StatementParameter}
    (drafted : Drafted model query draft)
    (listed : Sql.listUses [] draft.statement.uses = .ok parameters)
    (otherDrafted : Drafted model otherQuery otherDraft)
    (otherListed : Sql.listUses [] otherDraft.statement.uses = .ok otherParameters)
    (sameColumns : otherDraft.columns = draft.columns)
    (bindAlike : (∀ parameter ∈ otherParameters, ∃ bound,
        RowStep.binding context parameter = .ok bound) ↔
      ∀ parameter ∈ parameters, ∃ bound, RowStep.binding context parameter = .ok bound)
    (alike : ∀ bindings otherBindings, (rows draft parameters).bindings context = .ok bindings →
      (rows otherDraft otherParameters).bindings context = .ok otherBindings →
      (∀ valueSet, otherBindings.cells valueSet = bindings.cells valueSet) ∧
        draft.statement.Alike lenient bindings otherBindings otherDraft.statement) :
    Except.Related lenient (fun records otherRecords => otherRecords = records)
      ((rows draft parameters).run store context)
      ((rows otherDraft otherParameters).run store context) := by
  have distinct : Sql.Distinct (rows draft parameters).parameters :=
    (Sql.listUses_eq_ok Sql.distinct_nil listed).1
  have otherDistinct : Sql.Distinct (rows otherDraft otherParameters).parameters :=
    (Sql.listUses_eq_ok Sql.distinct_nil otherListed).1
  have canBind : ∀ {step : RowStep}, Sql.Distinct step.parameters →
      ((∃ bindings, step.bindings context = .ok bindings) ↔
        ∀ parameter ∈ step.parameters, ∃ bound, RowStep.binding context parameter = .ok bound) := by
    intro step distinct
    constructor
    · rintro ⟨bindings, areBound⟩
      exact RowStep.exists_binding_of_bindings areBound
    · intro supplied
      obtain ⟨bindings, areBound, _⟩ := RowStep.exists_bindings distinct supplied
      exact ⟨bindings, areBound⟩
  refine RowStep.related_run sameColumns ?_ fun bindings otherBindings areBound otherBound => ?_
  · exact (canBind otherDistinct).trans (bindAlike.trans (canBind distinct).symm)
  · obtain ⟨sameCells, statements⟩ := alike bindings otherBindings areBound otherBound
    exact statements.select sameCells (drafted.binds listed areBound)
      (otherDrafted.binds otherListed otherBound) store

end Planner

end FullTextQuery
