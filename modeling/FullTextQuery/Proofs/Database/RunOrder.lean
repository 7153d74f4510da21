import FullTextQuery.Proofs.Database.Enumeration
import FullTextQuery.Proofs.NameMap
import FullTextQuery.Proofs.Outcome

/-!
# The order of a run

A run that searches asks the service first, and the search counts as a whole: either the
values of all keys are kept, or nothing is.  The store is connected to afterwards, once,
and only if nothing has failed.
-/

namespace FullTextQuery

/-- What a run does to the world: it asks the search service, or it connects to the store. -/
inductive RunEvent where
  | asked (call : SearchCall)
  | connected
  deriving Repr, DecidableEq

/-- The same service with an event at the end of a log for every call. -/
def SearchService.withEvents
    (service : SearchService σ) :
    SearchService (σ × List RunEvent) where
  search index text state :=
    let (answer, next) := service.search index text state.1
    (answer, (next, state.2 ++ [.asked ⟨index, text⟩]))

/-- The same way to connect with an event at the end of a log for every use. -/
def connectWithEvents
    (connect : σ → Except Error Store × σ)
    (state : σ × List RunEvent) :
    Except Error Store × (σ × List RunEvent) :=
  let (answer, next) := connect state.1
  (answer, (next, state.2 ++ [.connected]))

/-- The same outcome with a log beside the world. -/
def RunOutcome.withEvents
    (outcome : RunOutcome σ)
    (log : List RunEvent) :
    RunOutcome (σ × List RunEvent) :=
  ⟨outcome.result, outcome.context, (outcome.world, log)⟩

/-- A value set is put into a context, and nothing else changes. -/
structure RunContext.Puts
    (before : RunContext)
    (name : String)
    (values : List Value)
    (after : RunContext) :
    Prop where
  isPut : after = before.putSet name values
  parameters : after.parameters = before.parameters
  here : after.valueSet name = .ok values
  elsewhere : ∀ other ≠ name, after.valueSet other = before.valueSet other

/-- Putting a value set changes nothing but the set of that name. -/
theorem RunContext.puts_putSet
    (context : RunContext)
    (name : String)
    (values : List Value) :
    context.Puts name values (context.putSet name values) where
  isPut := rfl
  parameters := rfl
  here := by simp [valueSet, putSet, NameMap.get?_insert]
  elsewhere other isOther := by simp [valueSet, putSet, NameMap.get?_insert, isOther]

namespace SearchStep

/--
How a search step goes, with what it does to the world: it has no text to ask for, or the
service refuses, or a key cannot be used, or the values of all keys are kept.
-/
inductive Goes
    (step : SearchStep)
    (service : SearchService σ)
    (context : RunContext)
    (world : σ) :
    Except Error RunContext → σ → List RunEvent → Prop
  | noText
    {cause : RunError}
    (hasNone : step.text context = .error cause) :
    Goes step service context world (.error (.run cause)) world []
  | refused
    {text : String}
    {e : Error}
    {after : σ}
    (isText : step.text context = .ok text)
    (answered : service.search step.index text world = (.error e, after)) :
    Goes step service context world (.error e) after [.asked ⟨step.index, text⟩]
  | badKey
    {text bad : String}
    {good others : List String}
    {cause : SearchError}
    {after : σ}
    (isText : step.text context = .ok text)
    (answered : service.search step.index text world = (.ok (good ++ bad :: others), after))
    (areGood : ∀ key ∈ good, ∃ value, Value.ofKey key step.keyKind = .ok value)
    (isBad : Value.ofKey bad step.keyKind = .error cause) :
    Goes step service context world (.error (.search cause)) after [.asked ⟨step.index, text⟩]
  | found
    {text : String}
    {keys : List String}
    {values : List Value}
    {context' : RunContext}
    {after : σ}
    (isText : step.text context = .ok text)
    (answered : service.search step.index text world = (.ok keys, after))
    (convert : List.Forall₂ (fun key value => Value.ofKey key step.keyKind = .ok value)
      keys values)
    (puts : context.Puts step.parameter values context') :
    Goes step service context world (.ok context') after [.asked ⟨step.index, text⟩]

variable
  {step : SearchStep} {service : SearchService σ} {context : RunContext} {world : σ}

/-- Keys are put if each of them converts, as the values in their order. -/
theorem putKeys_eq_ok
    {keys : List String}
    {context' : RunContext} :
    step.putKeys context keys = .ok context' ↔
      ∃ values, List.Forall₂ (fun key value => Value.ofKey key step.keyKind = .ok value)
        keys values ∧ context.Puts step.parameter values context' := by
  simp only [putKeys, Except.bind_eq_ok, Except.mapM_eq_ok, Except.pure_eq_ok, Except.ok.injEq]
  refine exists_congr fun values => and_congr_right fun _ => ?_
  constructor
  · rintro rfl
    exact context.puts_putSet step.parameter values
  · exact fun puts => puts.isPut.symm

/-- Keys are refused with the error of the first that does not convert. -/
theorem putKeys_eq_error
    {keys : List String}
    {cause : SearchError} :
    step.putKeys context keys = .error cause ↔
      ∃ good bad others, keys = good ++ bad :: others ∧
        (∀ key ∈ good, ∃ value, Value.ofKey key step.keyKind = .ok value) ∧
        Value.ofKey bad step.keyKind = .error cause := by
  simp only [putKeys, Except.bind_eq_error, Except.mapM_eq_error, Except.pure_eq_ok, reduceCtorEq,
    and_false, exists_false, or_false]

/-- With a log of events, the step does the same and puts its calls at the end of the log. -/
theorem run_withEvents
    (step : SearchStep)
    (service : SearchService σ)
    (context : RunContext)
    (world : σ)
    (log : List RunEvent) :
    step.run service.withEvents context (world, log) =
      ((step.run service context world).1,
        (step.run service context world).2, log ++ (step.calls context).map .asked) := by
  unfold run calls
  cases step.text context with
  | error cause =>
      simp
  | ok text =>
      rcases answered : service.search step.index text world with ⟨e | keys, after⟩ <;>
        simp [SearchService.withEvents, answered]

/-- A search step goes as its run does, and in no other way. -/
theorem goes_iff
    {result : Except Error RunContext}
    {after : σ}
    {events : List RunEvent} :
    step.Goes service context world result after events ↔
      step.run service context world = (result, after) ∧
        events = (step.calls context).map .asked := by
  unfold run calls
  constructor
  · intro goes
    cases goes with
    | noText hasNone => simp [hasNone]
    | refused isText answered => simp [isText, answered]
    | @badKey _ bad good others _ _ isText answered areGood isBad =>
        have failed : step.putKeys context (good ++ bad :: others) = .error _ :=
          putKeys_eq_error.mpr ⟨good, bad, others, rfl, areGood, isBad⟩
        simp [isText, answered, failed, Except.mapError]
    | found isText answered convert puts =>
        have kept := putKeys_eq_ok.mpr ⟨_, convert, puts⟩
        simp [isText, answered, kept, Except.mapError]
  · rintro ⟨ran, rfl⟩
    cases hasText : step.text context with
    | error cause =>
        obtain ⟨rfl, rfl⟩ := Prod.mk.inj ((by simpa only [hasText] using ran) :)
        exact .noText hasText
    | ok text =>
        simp only [hasText] at ran
        split at ran
        case h_1 e between answered =>
          obtain ⟨rfl, rfl⟩ := Prod.mk.inj ran
          exact .refused hasText answered
        case h_2 keys between answered =>
          obtain ⟨rfl, rfl⟩ := Prod.mk.inj ran
          cases kept : step.putKeys context keys with
          | error cause =>
              obtain ⟨good, bad, others, rfl, areGood, isBad⟩ := putKeys_eq_error.mp kept
              exact .badKey hasText answered areGood isBad
          | ok context' =>
              obtain ⟨values, convert, puts⟩ := putKeys_eq_ok.mp kept
              exact .found hasText answered convert puts

end SearchStep

variable [NumeralReading]

namespace Steps

/-- How the rows of a run go: the store cannot be connected to, or the row step runs in it. -/
inductive RowsGo
    (steps : Steps)
    (connect : σ → Except Error Store × σ)
    (context : RunContext)
    (world : σ) :
    RunOutcome σ → Prop
  | notConnected
    {e : Error}
    {after : σ}
    (connects : connect world = (.error e, after)) :
    RowsGo steps connect context world ⟨.error e, context, after⟩
  | connected
    {store : Store}
    {after : σ}
    (connects : connect world = (.ok store, after)) :
    RowsGo steps connect context world ⟨steps.rowStep.run store context, context, after⟩

/--
How a run goes, with what it does to the world: rows only, or a search that fails and
leaves the context as it was, or a search that succeeds and then rows.
-/
inductive Goes
    (steps : Steps)
    (service : SearchService σ)
    (connect : σ → Except Error Store × σ)
    (context : RunContext)
    (world : σ) :
    RunOutcome σ → List RunEvent → Prop
  | rowsOnly
    {outcome : RunOutcome σ}
    (noSearch : steps.search? = none)
    (rows : steps.RowsGo connect context world outcome) :
    Goes steps service connect context world outcome [.connected]
  | stopped
    {search : SearchStep}
    {e : Error}
    {after : σ}
    {events : List RunEvent}
    (isSearch : steps.search? = some search)
    (failed : search.Goes service context world (.error e) after events) :
    Goes steps service connect context world ⟨.error e, context, after⟩ events
  | wentOn
    {search : SearchStep}
    {context' : RunContext}
    {between : σ}
    {events : List RunEvent}
    {outcome : RunOutcome σ}
    (isSearch : steps.search? = some search)
    (found : search.Goes service context world (.ok context') between events)
    (rows : steps.RowsGo connect context' between outcome) :
    Goes steps service connect context world outcome (events ++ [.connected])

variable {steps : Steps} {service : SearchService σ}
  {connect : σ → Except Error Store × σ} {context : RunContext} {world : σ}

/-- The rows of a run go as they are run, and in no other way. -/
theorem rowsGo_iff
    {outcome : RunOutcome σ} :
    steps.RowsGo connect context world outcome ↔
      steps.runRows connect context world = outcome := by
  unfold runRows
  constructor
  · intro goes
    cases goes with
    | notConnected connects => rw [connects]
    | connected connects => rw [connects]
  · rintro rfl
    split
    case h_1 connects => exact .notConnected connects
    case h_2 connects => exact .connected connects

/-- With a log of events, the rows go as before, and connecting is put at the end of the log. -/
theorem runRows_withEvents
    (steps : Steps)
    (connect : σ → Except Error Store × σ)
    (context : RunContext)
    (world : σ)
    (log : List RunEvent) :
    steps.runRows (connectWithEvents connect) context (world, log) =
      (steps.runRows connect context world).withEvents (log ++ [.connected]) := by
  unfold runRows connectWithEvents
  rcases connect world with ⟨e | store, after⟩ <;> rfl

/-- What a run does to the world, in order. -/
def events
    (steps : Steps)
    (service : SearchService σ)
    (context : RunContext)
    (world : σ) :
    List RunEvent :=
  match steps.search? with
  | none => [.connected]
  | some search =>
      (search.calls context).map .asked ++
        match (search.run service context world).1 with
        | .error _ => []
        | .ok _ => [.connected]

/-- With a log of events, a run has the same outcome and puts its events at the end of the log. -/
theorem run_withEvents
    (steps : Steps)
    (service : SearchService σ)
    (connect : σ → Except Error Store × σ)
    (context : RunContext)
    (world : σ)
    (log : List RunEvent) :
    steps.run service.withEvents (connectWithEvents connect) context (world, log) =
      (steps.run service connect context world).withEvents
        (log ++ steps.events service context world) := by
  unfold run events
  cases steps.search? with
  | none => exact runRows_withEvents steps connect context world log
  | some search =>
      dsimp only
      rw [SearchStep.run_withEvents]
      rcases search.run service context world with ⟨e | found, after⟩
      · simp [RunOutcome.withEvents]
      · dsimp only
        rw [runRows_withEvents, List.append_assoc]

end Steps

end FullTextQuery
