import FullTextQuery.Binary64.Nearest
import FullTextQuery.Proofs.Database.Enumeration
import FullTextQuery.Proofs.Plan.Bindings
import FullTextQuery.Proofs.Planner.Plan

namespace FullTextQuery

/-!
# What a run takes from the caller

A run looks at the values of the caller in two places only: where its search step
needs a text, and where its row step binds the parameters that the caller
supplies.  The values of other names, the generated name of a value set among
them, make no difference, and each of the names that are looked at has to be
there for a run to return records.
-/

namespace Expr.SearchPhrase

/-- The parameter that holds the text of a phrase, if the caller supplies the text. -/
def parameter? : SearchPhrase → Option String
  | .literal _ => none
  | .parameter name => some name

end Expr.SearchPhrase

namespace RunContext

/-- Whether two contexts have the same value sets and the same values under some names. -/
structure AgreesOn
    (names : List String)
    (context other : RunContext) :
    Prop where
  values : ∀ name ∈ names, other.parameters.get? name = context.parameters.get? name
  valueSets : other.valueSets = context.valueSets

variable {names : List String} {context other : RunContext}

/-- Contexts that agree on a name supply the same for it. -/
theorem AgreesOn.supplied_eq
    (agrees : AgreesOn names context other)
    {name : String}
    (isName : name ∈ names) :
    other.supplied name = context.supplied name := by
  rw [supplied, supplied, agrees.values name isName]

/-- Contexts that agree have the same value sets. -/
theorem AgreesOn.valueSet_eq
    (agrees : AgreesOn names context other)
    (name : String) :
    other.valueSet name = context.valueSet name := by
  rw [valueSet, valueSet, agrees.valueSets]

/-- Contexts that agree still do when both are given the same value set. -/
theorem AgreesOn.putSet
    (agrees : AgreesOn names context other)
    (name : String)
    (values : List Value) :
    AgreesOn names (context.putSet name values) (other.putSet name values) :=
  ⟨agrees.values, by rw [RunContext.putSet, RunContext.putSet, agrees.valueSets]⟩

/-- Only a missing parameter is not supplied, and the error names it. -/
theorem supplied_eq_error
    {name : String}
    {cause : RunError} :
    context.supplied name = .error cause ↔
      context.parameters.get? name = none ∧ cause = .missingParameter name := by
  unfold supplied
  cases context.parameters.get? name <;> simp [eq_comm]

end RunContext

namespace RowStep

/-- The names of the values that a row step takes from the caller. -/
def callerNames
    (step : RowStep) :
    List String :=
  (step.parameters.filter (·.supplier = .caller)).map (·.name)

variable {step : RowStep} {context other : RunContext}

/-- The names of the caller are those of the parameters that the caller supplies. -/
theorem mem_callerNames
    {name : String} :
    name ∈ step.callerNames ↔ ⟨name, .caller⟩ ∈ step.parameters := by
  simp only [callerNames, List.mem_map, List.mem_filter, decide_eq_true_eq]
  constructor
  · rintro ⟨⟨_, _⟩, ⟨isParameter, rfl⟩, rfl⟩
    exact isParameter
  · intro isParameter
    exact ⟨_, ⟨isParameter, rfl⟩, rfl⟩

/-- What is bound is decided by the values of the caller's names and by the value sets. -/
theorem bindings_congr
    (agrees : RunContext.AgreesOn step.callerNames context other) :
    step.bindings other = step.bindings context := by
  have each : ∀ parameter ∈ step.parameters,
      binding other parameter = binding context parameter := by
    rintro ⟨name, supplier⟩ isParameter
    cases supplier with
    | caller => simp only [binding, agrees.supplied_eq (mem_callerNames.mpr isParameter)]
    | search => simp only [binding, agrees.valueSet_eq]
  have bindAll : ∀ (parameters : List StatementParameter),
      (∀ parameter ∈ parameters, binding other parameter = binding context parameter) →
      ∀ earlier : Store.Bindings,
        parameters.foldlM (fun earlier parameter =>
          (binding other parameter).map (earlier.insert parameter.name)) earlier =
        parameters.foldlM (fun earlier parameter =>
          (binding context parameter).map (earlier.insert parameter.name)) earlier := by
    intro parameters
    induction parameters with
    | nil => exact fun _ _ => rfl
    | cons parameter rest inductionHypothesis =>
        intro same earlier
        obtain ⟨first, others⟩ := List.forall_mem_cons.mp same
        rw [List.foldlM_cons, List.foldlM_cons, first]
        exact bind_congr fun between => inductionHypothesis others between
  exact bindAll step.parameters each .empty

variable [NumeralReading]

/-- Contexts that agree on the names of the caller run alike. -/
theorem run_congr
    (agrees : RunContext.AgreesOn step.callerNames context other)
    (store : Store) :
    step.run store other = step.run store context := by
  rw [run, run, bindings_congr agrees]

/-- A row step misses a parameter only if the caller did not supply one of its names. -/
theorem of_run_eq_missingParameter
    {store : Store}
    {name : String}
    (failed : step.run store context = .error (.run (.missingParameter name))) :
    name ∈ step.callerNames ∧ context.parameters.get? name = none := by
  have inBindings : step.bindings context = .error (.run (.missingParameter name)) := by
    rcases Except.bind_eq_error.mp failed with inBindings | ⟨_, _, behind⟩
    · exact inBindings
    · rcases Except.bind_eq_error.mp behind with inSelect | ⟨_, _, inRecords⟩
      · obtain ⟨_, _, ⟨⟩⟩ := Except.mapError_eq_error.mp inSelect
      · obtain ⟨_, _, ⟨⟩⟩ := Except.mapError_eq_error.mp inRecords
  -- Every failure to bind is one of a single parameter.
  have missing : (step.bindings context).FailsOnlyBy fun e =>
      ∀ name, e = .run (.missingParameter name) →
        name ∈ step.callerNames ∧ context.parameters.get? name = none := by
    refine .foldlM (fun parameter isParameter earlier => .map fun e notBound => ?_) _
    rintro name rfl
    obtain ⟨other, supplier⟩ := parameter
    cases supplier with
    | search =>
        obtain ⟨_, _, ⟨⟩⟩ := Except.mapError_eq_error.mp (Except.map_eq_error.mp notBound)
    | caller =>
        obtain ⟨cause, notSupplied, same⟩ :=
          Except.mapError_eq_error.mp (Except.map_eq_error.mp notBound)
        obtain ⟨absent, rfl⟩ := RunContext.supplied_eq_error.mp notSupplied
        obtain rfl : other = name := RunError.missingParameter.inj (Error.run.inj same)
        exact ⟨mem_callerNames.mpr isParameter, absent⟩
  exact missing _ inBindings name rfl

/-- A row step returns records only if the caller supplied all of its names. -/
theorem contains_of_run
    {store : Store}
    {records : List Record}
    (returned : step.run store context = .ok records) :
    ∀ name ∈ step.callerNames, context.parameters.contains name = true := by
  intro name isName
  obtain ⟨_, _, areBound, _⟩ := exists_select_of_run returned
  obtain ⟨_, isBound⟩ := exists_binding_of_bindings areBound _ (mem_callerNames.mp isName)
  obtain ⟨value, isSupplied, _⟩ := binding_caller_eq_ok.mp isBound
  rw [NameMap.contains, isSupplied]
  rfl

end RowStep

namespace SearchStep

/-- What the service answers to a search step, if there is a text to ask for. -/
def answer
    (step : SearchStep)
    (service : SearchService σ)
    (context : RunContext)
    (world : σ) :
    Except Error (List String) := do
  let text ← (step.text context).mapError .run
  (service.search step.index text world).1

variable
  {step : SearchStep} {service : SearchService σ} {context other : RunContext} {world : σ}

/-- A search step keeps the values of the keys that the service answers. -/
theorem result_run
    (step : SearchStep)
    (service : SearchService σ)
    (context : RunContext)
    (world : σ) :
    (step.run service context world).1 = (do
      let keys ← step.answer service context world
      (step.putKeys context keys).mapError .search) := by
  unfold run answer
  cases step.text context with
  | error cause => rfl
  | ok text =>
      rcases answered : service.search step.index text world with ⟨e | keys, after⟩ <;>
        simp [Except.mapError, answered]

/-- A search step leaves behind what the service does, if there is a text to ask for. -/
theorem world_run
    (step : SearchStep)
    (service : SearchService σ)
    (context : RunContext)
    (world : σ) :
    (step.run service context world).2 =
      match step.text context with
      | .error _ => world
      | .ok text => (service.search step.index text world).2 := by
  unfold run
  cases step.text context with
  | error cause => rfl
  | ok text =>
      rcases answered : service.search step.index text world with ⟨e | keys, after⟩ <;>
        simp [answered]

/-- The text to search for depends on the parameter that it is taken from. -/
theorem text_congr
    (agrees : RunContext.AgreesOn step.phrase.parameter?.toList context other) :
    step.text other = step.text context := by
  unfold text
  cases isPhrase : step.phrase with
  | literal text => rfl
  | parameter name =>
      have isName : name ∈ step.phrase.parameter?.toList := by
        simp [isPhrase, Expr.SearchPhrase.parameter?]
      simp only [agrees.supplied_eq isName]

/-- The text of a search step is missing only if the caller did not supply it. -/
theorem of_text_eq_missingParameter
    {name : String}
    (failed : step.text context = .error (.missingParameter name)) :
    name ∈ step.phrase.parameter?.toList ∧ context.parameters.get? name = none := by
  unfold text at failed
  cases isPhrase : step.phrase with
  | literal text => simp [isPhrase] at failed
  | parameter other =>
      simp only [isPhrase] at failed
      rcases Except.bind_eq_error.mp failed with notSupplied | ⟨value, _, notText⟩
      · obtain ⟨absent, same⟩ := RunContext.supplied_eq_error.mp notSupplied
        obtain rfl : name = other := RunError.missingParameter.inj same
        exact ⟨by simp [Expr.SearchPhrase.parameter?], absent⟩
      · cases value <;> simp at notText

/-- A search step has a text only if the caller supplied it where the phrase asks for it. -/
theorem contains_of_text
    {text : String}
    (isText : step.text context = .ok text) :
    ∀ name ∈ step.phrase.parameter?.toList, context.parameters.contains name = true := by
  unfold SearchStep.text at isText
  cases isPhrase : step.phrase with
  | literal text => simp [Expr.SearchPhrase.parameter?]
  | parameter name =>
      simp only [isPhrase] at isText
      obtain ⟨value, isSupplied, _⟩ := Except.bind_eq_ok.mp isText
      simp [Expr.SearchPhrase.parameter?, NameMap.contains,
        RunContext.supplied_eq_ok.mp isSupplied]

end SearchStep

namespace QueryPlan

/-- The names of the caller that a plan looks at: the search's text and the row step's values. -/
def callerNames
    (plan : QueryPlan) :
    List String :=
  plan.steps.search?.toList.flatMap (·.phrase.parameter?.toList) ++ plan.steps.rowStep.callerNames

end QueryPlan

namespace Database

variable {database : Database σ} {plan : QueryPlan} {parameters other : Parameters}

variable [NumeralReading]

/-- What a run gives: the row step's records, behind the keys of the search if there is one. -/
theorem result_run
    (database : Database σ)
    (plan : QueryPlan)
    (parameters : Parameters) :
    (database.run plan parameters).1 =
      match plan.steps.search? with
      | none => plan.steps.rowStep.run database.store (.start parameters)
      | some search => (do
          let keys ← search.answer database.service (.start parameters) database.world
          let found ← (search.putKeys (.start parameters) keys).mapError .search
          plan.steps.rowStep.run database.store found) := by
  simp only [run, Steps.run]
  cases plan.steps.search? with
  | none => rfl
  | some search =>
      have result := search.result_run database.service (.start parameters) database.world
      rcases ran : search.run database.service (.start parameters) database.world with
        ⟨e | found, after⟩ <;>
        simp only [ran] at result <;>
        simp only [ran, ← bind_assoc, ← result] <;>
        rfl

/-- What a run leaves behind: the world after the call of the service, if there was one. -/
theorem after_run
    (database : Database σ)
    (plan : QueryPlan)
    (parameters : Parameters) :
    (database.run plan parameters).2 =
      { database with
        world := plan.steps.search?.elim database.world fun search =>
          (search.run database.service (.start parameters) database.world).2 } := by
  simp only [run, Steps.run]
  cases plan.steps.search? with
  | none => rfl
  | some search =>
      rcases ran : search.run database.service (.start parameters) database.world with
        ⟨e | found, after⟩ <;>
        simp [ran, Steps.runRows]

/-- Runs are the same for parameters that agree on the names that the plan looks at. -/
theorem run_congr
    (agree : ∀ name ∈ plan.callerNames, other.get? name = parameters.get? name)
    (database : Database σ) :
    database.run plan other = database.run plan parameters := by
  obtain ⟨textAgrees, rowsAgree⟩ := List.forall_mem_append.mp agree
  have startAgrees : RunContext.AgreesOn plan.steps.rowStep.callerNames
      (.start parameters) (.start other) := ⟨rowsAgree, rfl⟩
  rw [Prod.ext_iff, result_run, result_run, after_run, after_run]
  cases isSearch : plan.steps.search? with
  | none => exact ⟨RowStep.run_congr startAgrees database.store, rfl⟩
  | some search =>
      have sameText : search.text (.start other) = search.text (.start parameters) :=
        SearchStep.text_congr
          ⟨fun name isName => textAgrees name (by simpa [isSearch] using isName), rfl⟩
      refine ⟨?_, ?_⟩
      · simp only [SearchStep.answer, sameText]
        refine bind_congr fun keys => ?_
        simp only [SearchStep.putKeys]
        cases keys.mapM fun key => Value.ofKey key search.keyKind with
        | error cause => rfl
        | ok values =>
            exact RowStep.run_congr (startAgrees.putSet search.parameter values) database.store
      · simp only [Option.elim_some, SearchStep.world_run, sameText]

/-- A run misses a parameter only if the plan looks at it, or if the service answers so. -/
theorem of_run_eq_missingParameter
    {name : String}
    (failed : (database.run plan parameters).1 = .error (.run (.missingParameter name))) :
    (name ∈ plan.callerNames ∧ parameters.get? name = none) ∨
      ∃ search text, plan.steps.search? = some search ∧
        search.text (.start parameters) = .ok text ∧
        (database.service.search search.index text database.world).1 =
          .error (.run (.missingParameter name)) := by
  have inRows : ∀ {context : RunContext}, context.parameters = parameters →
      plan.steps.rowStep.run database.store context = .error (.run (.missingParameter name)) →
      name ∈ plan.callerNames ∧ parameters.get? name = none := by
    rintro context rfl rowsFailed
    obtain ⟨isName, absent⟩ := RowStep.of_run_eq_missingParameter rowsFailed
    exact ⟨List.mem_append_right _ isName, absent⟩
  rw [result_run] at failed
  cases isSearch : plan.steps.search? with
  | none =>
      simp only [isSearch] at failed
      exact .inl (inRows rfl failed)
  | some search =>
      simp only [isSearch] at failed
      rcases Except.bind_eq_error.mp failed with noAnswer | ⟨keys, _, behind⟩
      · rcases Except.bind_eq_error.mp noAnswer with noText | ⟨text, isText, refused⟩
        · obtain ⟨cause, noText, same⟩ := Except.mapError_eq_error.mp noText
          rw [Error.run.inj same] at noText
          obtain ⟨isName, absent⟩ := SearchStep.of_text_eq_missingParameter noText
          exact .inl ⟨List.mem_append_left _ (by simpa [isSearch] using isName), absent⟩
        · exact .inr ⟨search, text, rfl, Except.mapError_eq_ok.mp isText, refused⟩
      · rcases Except.bind_eq_error.mp behind with notKeys | ⟨found, areKeys, rowsFailed⟩
        · obtain ⟨_, _, ⟨⟩⟩ := Except.mapError_eq_error.mp notKeys
        · obtain ⟨values, _, rfl⟩ := Except.map_eq_ok.mp (Except.mapError_eq_ok.mp areKeys)
          exact .inl (inRows rfl rowsFailed)

/-- A run returns records only if the caller supplied every name that the plan looks at. -/
theorem contains_of_run
    {records : List Record}
    (returned : (database.run plan parameters).1 = .ok records) :
    ∀ name ∈ plan.callerNames, parameters.contains name = true := by
  rw [result_run] at returned
  rw [QueryPlan.callerNames, List.forall_mem_append]
  cases isSearch : plan.steps.search? with
  | none =>
      simp only [isSearch] at returned
      exact ⟨by simp, RowStep.contains_of_run returned⟩
  | some search =>
      simp only [isSearch, Except.bind_eq_ok] at returned
      obtain ⟨keys, answered, found, areKeys, rowsReturned⟩ := returned
      obtain ⟨text, isText, _⟩ := Except.bind_eq_ok.mp answered
      obtain ⟨values, _, rfl⟩ := Except.map_eq_ok.mp (Except.mapError_eq_ok.mp areKeys)
      have textThere := SearchStep.contains_of_text (Except.mapError_eq_ok.mp isText)
      refine ⟨fun name isName => textThere name (by simpa using isName), ?_⟩
      exact RowStep.contains_of_run rowsReturned

end Database

namespace Cursor

/-- Asked for their first row, cursors over parameters that agree do the same from then on. -/
theorem next_start_congr
    [NumeralReading]
    {plan : QueryPlan}
    {parameters other : Parameters}
    (agree : ∀ name ∈ plan.callerNames, other.get? name = parameters.get? name)
    (database : Database σ) :
    (start plan other).next database = (start plan parameters).next database := by
  simp only [next, start, Database.run_congr agree]

end Cursor

namespace QueryPlan

/-- How a plan takes the names that it looks at, and no others, from the caller. -/
structure ReadsNamed
    [NumeralReading]
    (plan : QueryPlan) :
    Prop where
  /-- Parameters that agree on the names give the same runs, whatever the database is. -/
  runs : ∀ {σ : Type} (database : Database σ) (parameters other : Parameters),
    (∀ name ∈ plan.callerNames, other.get? name = parameters.get? name) →
    database.run plan other = database.run plan parameters
  /-- They give the same enumerations, with the same calls of the search service. -/
  pulls : ∀ {σ : Type} (database : Database σ) (parameters other : Parameters),
    (∀ name ∈ plan.callerNames, other.get? name = parameters.get? name) →
    (Cursor.start plan other).next database = (Cursor.start plan parameters).next database ∧
      (Cursor.start plan other).calls database = (Cursor.start plan parameters).calls database
  /-- The row step runs with the service's keys as its value set, whatever the caller has. -/
  keys : ∀ {σ : Type} (database : Database σ) (parameters : Parameters) {search : SearchStep}
    {keys : List String} {values : List Value},
    plan.steps.search? = some search →
    search.answer database.service (.start parameters) database.world = .ok keys →
    keys.mapM (fun key => Value.ofKey key search.keyKind) = .ok values →
    (database.run plan parameters).1 =
        plan.steps.rowStep.run database.store (plan.steps.contextOf parameters values) ∧
      ∀ bindings,
        plan.steps.rowStep.bindings (plan.steps.contextOf parameters values) = .ok bindings →
        bindings.get? search.parameter = some (.array values)
  /-- A value of the caller under the name of a value set is looked at as a search text only. -/
  generated : ∀ search, plan.steps.search? = some search →
    search.phrase.parameter? ≠ some search.parameter → search.parameter ∉ plan.callerNames
  /-- A value is missing only under one of the names, or because the service says so. -/
  missing : ∀ {σ : Type} (database : Database σ) (parameters : Parameters) (name : String),
    (database.run plan parameters).1 = .error (.run (.missingParameter name)) →
    (name ∈ plan.callerNames ∧ parameters.get? name = none) ∨
      ∃ search text, plan.steps.search? = some search ∧
        search.text (.start parameters) = .ok text ∧
        (database.service.search search.index text database.world).1 =
          .error (.run (.missingParameter name))
  /-- Records are returned only if there is a value under each of the names. -/
  present : ∀ {σ : Type} (database : Database σ) (parameters : Parameters)
    (records : List Record), (database.run plan parameters).1 = .ok records →
    ∀ name ∈ plan.callerNames, parameters.contains name = true

end QueryPlan

namespace Planner

variable {model : Model} {query : Query} {draft : Draft}

/-- In the row step of a draft, the name of the search's value set stands for that set only. -/
theorem Drafted.listed_of_search?
    (drafted : Drafted model query draft)
    {parameters : List StatementParameter}
    (listed : Sql.listUses [] draft.statement.uses = .ok parameters)
    {search : SearchStep}
    (isSearch : (steps draft parameters).search? = some search) :
    ⟨search.parameter, .search⟩ ∈ parameters ∧ ⟨search.parameter, .caller⟩ ∉ parameters := by
  have distinct := (Sql.listUses_eq_ok Sql.distinct_nil listed).1
  have nonempty : draft.searches ≠ [] := by
    intro noSearches
    simp [steps, noSearches, Steps.search?] at isSearch
  have isParameter : search.parameter = Search.keyParameter 1 := by
    have finds : (steps draft parameters).finds (Search.keyParameter 1) = true :=
      drafted.finds_keyParameter nonempty
    obtain ⟨_, same, isName⟩ := Steps.finds_iff.mp finds
    obtain rfl := Option.some.inj (isSearch.symm.trans same)
    exact isName
  have isListed : ⟨search.parameter, .search⟩ ∈ parameters :=
    (drafted.search_mem_parameters listed).mpr ⟨isParameter, nonempty⟩
  refine ⟨isListed, fun isCaller => ?_⟩
  cases distinct.eq_of_name_eq isListed isCaller rfl

/--
A plan looks at the values under the names that it takes from the caller, and at no
others; a value under the name of a value set never takes the place of the set.
-/
theorem readsNamed_of_plan
    [NumeralReading]
    {plan : QueryPlan}
    (planned : (searching model).plan query = .ok plan) :
    plan.ReadsNamed := by
  obtain ⟨draft, slots, drafted, listed, rfl⟩ := plan_eq_ok.mp planned
  refine ⟨?runs, ?pulls, ?keys, ?generated, ?missing, ?present⟩
  case runs =>
    intro σ database parameters other agree
    exact Database.run_congr agree database
  case pulls =>
    intro σ database parameters other agree
    refine ⟨Cursor.next_start_congr agree database, ?_⟩
    rw [Cursor.calls, Cursor.calls, Cursor.next_start_congr agree database.recorded]
  case keys =>
    intro σ database parameters search keys values isSearch answered converted
    obtain ⟨text, isText, found⟩ := Except.bind_eq_ok.mp answered
    have finds : database.Finds ⟨steps draft slots, draft.searches⟩ parameters values := by
      rw [Database.Finds, isSearch]
      exact ⟨text, keys, Except.mapError_eq_ok.mp isText, found, converted⟩
    refine ⟨Database.run_eq_of_finds finds, fun bindings areBound => ?_⟩
    obtain ⟨isListed, _⟩ := drafted.listed_of_search? listed isSearch
    rw [rowStep_steps] at areBound
    have distinct : Sql.Distinct (rows draft slots).parameters :=
      (Sql.listUses_eq_ok Sql.distinct_nil listed).1
    obtain ⟨_, areSame, each⟩ := RowStep.exists_bindings distinct
      (RowStep.exists_binding_of_bindings areBound)
    obtain rfl := Except.ok.inj (areSame.symm.trans areBound)
    refine each _ isListed _ (RowStep.binding_search_eq_ok.mpr ⟨values, ?_, rfl⟩)
    simp [Steps.contextOf, isSearch, RunContext.putSet, NameMap.get?_insert]
  case generated =>
    intro search isSearch notText isName
    obtain ⟨_, notCaller⟩ := drafted.listed_of_search? listed isSearch
    rcases List.mem_append.mp isName with isText | isCaller
    · exact notText (by simpa [isSearch] using isText)
    · rw [rowStep_steps] at isCaller
      exact notCaller (RowStep.mem_callerNames.mp isCaller)
  case missing =>
    intro σ database parameters name failed
    exact Database.of_run_eq_missingParameter failed
  case present =>
    intro σ database parameters records returned
    exact Database.contains_of_run returned

end Planner

namespace Query

/-- The customers of another name that a search finds, with the text and the name supplied. -/
def foundByText : Query where
  source := ⟨"c", "Customer"⟩
  filters := [
    .searchParameter "c" "text",
    .compare (.member "c" "Name") .notEq (.parameter "name")]
  projection := [.member "c" "Id"]

end Query

namespace Planner

/-- The customers with a name that a search for a given text finds have a plan. -/
theorem exists_plan_foundByText :
    ∃ plan, (searching .shop).plan .foundByText = .ok plan ∧
      plan.callerNames = ["text", "name"] := by
  have isPlanned : (((searching .shop).plan .foundByText).toOption.map QueryPlan.callerNames) =
      some ["text", "name"] := by
    decide +kernel
  obtain ⟨plan, isPlan, names⟩ := Option.map_eq_some_iff.mp isPlanned
  cases planned : (searching .shop).plan .foundByText with
  | error e => simp [planned, Except.toOption] at isPlan
  | ok other =>
      obtain rfl : other = plan := by simpa [planned] using isPlan
      exact ⟨other, rfl, names⟩

/-- A text and a name are looked at, and the value set of the search is not taken from them. -/
theorem readsNamed_foundByText :
    ∃ plan, (searching .shop).plan .foundByText = .ok plan ∧
      plan.callerNames = ["text", "name"] ∧ plan.ReadsNamed := by
  obtain ⟨plan, planned, names⟩ := exists_plan_foundByText
  exact ⟨plan, planned, names, readsNamed_of_plan planned⟩

end Planner

end FullTextQuery
