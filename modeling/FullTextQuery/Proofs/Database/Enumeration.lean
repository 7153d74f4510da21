import FullTextQuery.Database.Cursor
import FullTextQuery.Service.Scripted

namespace FullTextQuery

/-!
# How cursors hand out rows

A cursor that has not been asked for a row has done nothing.  The first time it
is asked, the plan runs in the database as it is then.  From there on the cursor
hands out what that run gave, and neither looks at the database nor changes it,
however many other cursors are used in between and whatever happens to the
tables and to the search service.
-/

namespace SearchStep

/-- The calls to the search service that the step makes in a context. -/
def calls
    (step : SearchStep)
    (context : RunContext) :
    List SearchCall :=
  match step.text context with
  | .error _ => []
  | .ok text => [⟨step.index, text⟩]

/-- Recorded, the step does the same and its calls are put at the end of the log. -/
theorem run_recorded
    (step : SearchStep)
    (service : SearchService σ)
    (context : RunContext)
    (world : σ)
    (log : List SearchCall) :
    step.run service.recorded context (world, log) =
      ((step.run service context world).1,
        (step.run service context world).2, log ++ step.calls context) := by
  unfold run calls
  cases step.text context with
  | error cause =>
      simp
  | ok text =>
      rcases answered : service.search step.index text world with ⟨e | keys, after⟩ <;>
        simp [SearchService.recorded, answered]

end SearchStep

namespace Steps

/-- The calls to the search service that a run makes. -/
def calls
    (steps : Steps)
    (parameters : Parameters) :
    List SearchCall :=
  steps.search?.toList.flatMap fun search => search.calls (.start parameters)

/-- Steps call the search service once at most. -/
theorem length_calls_le_one
    (steps : Steps)
    (parameters : Parameters) :
    (steps.calls parameters).length ≤ 1 := by
  unfold calls
  cases steps.search? with
  | none => simp
  | some search =>
      unfold SearchStep.calls
      cases isText : search.text (.start parameters) <;> simp [isText]

/-- A run calls the search service if it searches and there is a text to search for. -/
theorem length_calls_eq_one_iff
    {steps : Steps}
    {parameters : Parameters} :
    (steps.calls parameters).length = 1 ↔
      ∃ search text, steps.search? = some search ∧
        search.text (.start parameters) = .ok text := by
  unfold calls
  cases steps.search? with
  | none => simp
  | some search =>
      unfold SearchStep.calls
      cases isText : search.text (.start parameters) <;> simp [isText]

end Steps

variable [NumeralReading]

namespace Database

/-- The same database with a search service that keeps a log, which is empty. -/
def recorded
    (database : Database σ) :
    Database (σ × List SearchCall) where
  planner := database.planner
  service := database.service.recorded
  world := (database.world, [])
  store := database.store
  cache := database.cache
  preparations := database.preparations

/-- Recorded, a run has the same result. -/
theorem run_recorded_fst
    (database : Database σ)
    (plan : QueryPlan)
    (parameters : Parameters) :
    (database.recorded.run plan parameters).1 = (database.run plan parameters).1 := by
  unfold run Steps.run
  cases plan.steps.search? with
  | none => rfl
  | some search =>
      rcases searched : search.run database.service (.start parameters) database.world with
        ⟨e | found, after⟩ <;>
        simp [recorded, SearchStep.run_recorded, searched, Steps.runRows]

/-- Recorded, a run leaves the same world behind, and its calls in the log. -/
theorem run_recorded_world
    (database : Database σ)
    (plan : QueryPlan)
    (parameters : Parameters) :
    (database.recorded.run plan parameters).2.world =
      ((database.run plan parameters).2.world, plan.steps.calls parameters) := by
  unfold run Steps.run Steps.calls
  cases plan.steps.search? with
  | none => rfl
  | some search =>
      rcases searched : search.run database.service (.start parameters) database.world with
        ⟨e | found, after⟩ <;>
        simp [recorded, SearchStep.run_recorded, searched, Steps.runRows]

/--
What the result of a run is handed out as, one item each time: the rows in their
order or the one failure, and nothing from there on.
-/
def handedOut : Except Error (List Record) → Nat → Option (Except Error Record)
  | .ok rows, n => rows[n]?.map .ok
  | .error e, 0 => some (.error e)
  | .error _, _ + 1 => none

end Database

namespace Cursor

/-- What a cursor that has run its plan hands out from here on. -/
def ahead
    (cursor : Cursor)
    (n : Nat) :
    Option (Except Error Record) :=
  match cursor.progress with
  | .handingOut rows => rows[n]?.map .ok
  | _ => none

/-- Whether a cursor has run its plan. -/
def HasRun
    (cursor : Cursor) :
    Prop :=
  ∀ parameters, cursor.progress ≠ .waiting parameters

/-- The calls to the search service that a cursor makes when it is asked for a row. -/
def calls
    (cursor : Cursor)
    (database : Database σ) :
    List SearchCall :=
  (cursor.next database.recorded).database.world.2

end Cursor

/-- What a pull gives if the items to hand out are known, and what it leaves behind. -/
structure Pull.HandsOut
    (pull : Pull σ)
    (items : Nat → Option (Except Error Record))
    (database : Database σ) :
    Prop where
  item : pull.item? = items 0
  database : pull.database = database
  hasRun : pull.cursor.HasRun
  ahead : ∀ n, pull.cursor.ahead n = items (n + 1)

namespace Cursor

variable {plan : QueryPlan} {parameters : Parameters}

omit [NumeralReading] in
/-- A cursor that hands out some rows hands out the first of them and then the others. -/
theorem handsOut_handOut
    (database : Database σ)
    (rows : List Record) :
    (handOut plan database rows).HandsOut (Database.handedOut (.ok rows)) database := by
  cases rows with
  | nil => exact ⟨rfl, rfl, by simp [HasRun, handOut], by simp [ahead, handOut, Database.handedOut]⟩
  | cons row rows => exact ⟨rfl, rfl, by simp [HasRun, handOut], fun _ => rfl⟩

/-- A waiting cursor runs its plan once, when it is asked for the first row. -/
theorem handsOut_next_start
    (database : Database σ) :
    ((start plan parameters).next database).HandsOut
      (Database.handedOut (database.run plan parameters).1)
      (database.run plan parameters).2 := by
  rcases ran : database.run plan parameters with ⟨e | rows, after⟩
  · simp only [next, start, ran]
    exact ⟨rfl, rfl, by simp [HasRun], fun _ => rfl⟩
  · simp only [next, start, ran]
    exact handsOut_handOut after rows

/-- A cursor that has run its plan neither looks at the database nor changes it. -/
theorem handsOut_next_of_hasRun
    {cursor : Cursor}
    (hasRun : cursor.HasRun)
    (database : Database σ) :
    (cursor.next database).HandsOut cursor.ahead database := by
  obtain ⟨plan, parameters | rows | _⟩ := cursor
  · exact absurd rfl (hasRun parameters)
  · exact handsOut_handOut database rows
  · exact ⟨rfl, rfl, by simp [HasRun, next], fun _ => rfl⟩

/-- A log of the calls changes nothing in what is handed out and what is left behind. -/
theorem next_recorded
    (cursor : Cursor)
    (database : Database σ) :
    (cursor.next database.recorded).item? = (cursor.next database).item? ∧
      (cursor.next database.recorded).cursor = (cursor.next database).cursor ∧
      (cursor.next database.recorded).database.world.1 = (cursor.next database).database.world := by
  obtain ⟨plan, parameters | rows | _⟩ := cursor
  · have result := database.run_recorded_fst plan parameters
    have world := congrArg Prod.fst (database.run_recorded_world plan parameters)
    rcases ran : database.run plan parameters with ⟨e | _ | ⟨row, rows⟩, after⟩ <;>
      rcases ranRecorded : database.recorded.run plan parameters with ⟨_, afterRecorded⟩ <;>
      rw [ran, ranRecorded] at result world <;>
      obtain rfl := result <;>
      simpa [next, ran, ranRecorded, handOut] using world
  · cases rows <;> exact ⟨rfl, rfl, rfl⟩
  · exact ⟨rfl, rfl, rfl⟩

/-- A new cursor has all calls of its plan before it. -/
theorem calls_start
    (database : Database σ) :
    (start plan parameters).calls database = plan.steps.calls parameters := by
  rw [calls, (handsOut_next_start _).database, Database.run_recorded_world]

/-- A cursor whose plan has run calls nothing anymore. -/
theorem calls_of_hasRun
    {cursor : Cursor}
    (hasRun : cursor.HasRun)
    (database : Database σ) :
    cursor.calls database = [] := by
  rw [calls, (handsOut_next_of_hasRun hasRun _).database]
  rfl

end Cursor

/-- A pull, what it saw before it and what it left behind. -/
structure Visit (σ : Type) where
  before : Database σ
  item? : Option (Except Error Record)
  calls : List SearchCall
  after : Database σ

/-- A cursor of some parameters with all the pulls from its start on. -/
structure Enumeration (σ : Type) where
  parameters : Parameters
  cursor : Cursor
  visits : List (Visit σ)

namespace Enumeration

/-- An enumeration before its first pull. -/
def start
    (plan : QueryPlan)
    (parameters : Parameters) :
    Enumeration σ :=
  ⟨parameters, .start plan parameters, []⟩

/-- The enumeration after one more pull. -/
def pull
    (enumeration : Enumeration σ)
    (database : Database σ) :
    Enumeration σ :=
  let pulled := enumeration.cursor.next database
  { enumeration with
    cursor := pulled.cursor
    visits := enumeration.visits ++
      [⟨database, pulled.item?, enumeration.cursor.calls database, pulled.database⟩] }

/-- The items of all pulls. -/
def items
    (enumeration : Enumeration σ) :
    List (Option (Except Error Record)) :=
  enumeration.visits.map (·.item?)

/-- The calls to the search service of all pulls. -/
def calls
    (enumeration : Enumeration σ) :
    List SearchCall :=
  enumeration.visits.flatMap (·.calls)

/--
How an enumeration of a plan behaves: nothing is done before the first pull, the
plan is run by the first one in the database that it sees, and the others hand out
the rest of what that run gave and leave the database as it is.
-/
inductive Enumerates
    (plan : QueryPlan)
    (enumeration : Enumeration σ) :
    Prop where
  | notPulled
    (noVisits : enumeration.visits = [])
    (waits : enumeration.cursor = .start plan enumeration.parameters)
  | pulled
    (first : Visit σ)
    (others : List (Visit σ))
    (areVisits : enumeration.visits = first :: others)
    (runs : first.after = (first.before.run plan enumeration.parameters).2)
    (calls : first.calls = plan.steps.calls enumeration.parameters)
    (leaves : ∀ other ∈ others, other.after = other.before ∧ other.calls = [])
    (items : enumeration.items = (List.range enumeration.visits.length).map
      (Database.handedOut (first.before.run plan enumeration.parameters).1))
    (hasRun : enumeration.cursor.HasRun)
    (ahead : ∀ n, enumeration.cursor.ahead n =
      Database.handedOut (first.before.run plan enumeration.parameters).1
        (enumeration.visits.length + n))

variable {plan : QueryPlan} {enumeration : Enumeration σ}

/-- One more pull keeps to the protocol, whatever database it sees. -/
theorem Enumerates.pull
    (enumerates : enumeration.Enumerates plan)
    (database : Database σ) :
    (enumeration.pull database).Enumerates plan := by
  cases enumerates with
  | notPulled noVisits waits =>
      have handsOut : (enumeration.cursor.next database).HandsOut _ _ :=
        waits ▸ Cursor.handsOut_next_start database
      refine .pulled ⟨database, _, _, _⟩ [] (by rw [Enumeration.pull, noVisits]; rfl)
        handsOut.database ?_ (by simp) ?_ handsOut.hasRun ?_
      · simp only [waits, Cursor.calls_start]
        rfl
      · simp [items, Enumeration.pull, noVisits, handsOut.item]
      · intro n
        simpa [Enumeration.pull, noVisits, Nat.add_comm] using handsOut.ahead n
  | pulled first others areVisits runs calls leaves itemsSoFar hasRun ahead =>
      have handsOut := Cursor.handsOut_next_of_hasRun hasRun database
      refine .pulled first (others ++ [⟨database, _, _, _⟩])
        (by rw [Enumeration.pull, areVisits]; rfl) runs calls ?_ ?_ handsOut.hasRun ?_
      · simp only [List.forall_mem_append, List.forall_mem_singleton]
        exact ⟨leaves, handsOut.database, Cursor.calls_of_hasRun hasRun database⟩
      · have item := handsOut.item.trans (ahead 0)
        simp only [items, Enumeration.pull, List.map_append, List.length_append] at itemsSoFar ⊢
        simp [itemsSoFar, List.range_succ, item]
      · intro n
        have following := (handsOut.ahead n).trans (ahead (n + 1))
        simpa [Enumeration.pull, Nat.add_assoc, Nat.add_comm 1] using following

/-- Such an enumeration asks the search service in its first pull, or not at all. -/
theorem Enumerates.calls_eq
    (enumerates : enumeration.Enumerates plan) :
    enumeration.calls =
      if enumeration.visits = [] then [] else plan.steps.calls enumeration.parameters := by
  cases enumerates with
  | notPulled noVisits waits =>
      simp [Enumeration.calls, noVisits]
  | pulled first others areVisits runs calls leaves _ _ _ =>
      have noOthers : others.flatMap (·.calls) = [] := by
        simpa using fun other isOther => (leaves other isOther).2
      simp [Enumeration.calls, areVisits, noOthers, calls]

/-- The protocol of an enumeration, in terms of its pulls. -/
structure FollowsProtocol
    (plan : QueryPlan)
    (enumeration : Enumeration σ) :
    Prop where
  waits : enumeration.visits = [] → enumeration.cursor = .start plan enumeration.parameters
  runs : ∀ first others, enumeration.visits = first :: others →
    first.after = (first.before.run plan enumeration.parameters).2 ∧
      ∀ other ∈ others, other.after = other.before ∧ other.calls = []
  items : ∀ first others, enumeration.visits = first :: others →
    enumeration.items = (List.range (others.length + 1)).map
      (Database.handedOut (first.before.run plan enumeration.parameters).1)
  atMostOneCall : enumeration.calls.length ≤ 1
  oneCall : enumeration.calls.length = 1 ↔ enumeration.visits ≠ [] ∧
    ∃ search text, plan.steps.search? = some search ∧
      search.text (.start enumeration.parameters) = .ok text

/-- Whatever happens in between, an enumeration of a plan follows the protocol. -/
theorem Enumerates.followsProtocol
    (enumerates : enumeration.Enumerates plan) :
    enumeration.FollowsProtocol plan := by
  have callsOnce : enumeration.calls.length ≤ 1 ∧
      (enumeration.calls.length = 1 ↔ enumeration.visits ≠ [] ∧
        ∃ search text, plan.steps.search? = some search ∧
          search.text (.start enumeration.parameters) = .ok text) := by
    rw [enumerates.calls_eq]
    split
    · rename_i noVisits
      simp [noVisits]
    · rename_i visited
      exact ⟨Steps.length_calls_le_one _ _, by simp [Steps.length_calls_eq_one_iff, visited]⟩
  cases enumerates with
  | notPulled noVisits waits =>
      exact ⟨fun _ => waits, by simp [noVisits], by simp [noVisits], callsOnce.1, callsOnce.2⟩
  | pulled first others areVisits runs _ leaves items _ _ =>
      rw [areVisits] at items
      refine ⟨by simp [areVisits], ?_, ?_, callsOnce.1, callsOnce.2⟩
      all_goals
        intro _ _ same
        obtain ⟨rfl, rfl⟩ := List.cons.inj (areVisits.symm.trans same)
      · exact ⟨runs, leaves⟩
      · exact items

end Enumeration

/-- What may happen to a database and to the enumerations of a plan. -/
inductive SessionEvent (σ : Type) where
  | start (parameters : Parameters)
  | pull (place : Nat)
  | change (other : Database σ → Database σ)

/-- A database and the enumerations of a plan that were started, in their order. -/
structure Session (σ : Type) where
  plan : QueryPlan
  database : Database σ
  enumerations : List (Enumeration σ) := []

namespace Session

/--
One event.  Starting an enumeration leaves the database alone, a pull changes it as the
cursor does, and whatever else changes it may do so in any way.
-/
def step
    (session : Session σ) :
    SessionEvent σ → Session σ
  | .start parameters =>
      { session with enumerations := session.enumerations ++ [.start session.plan parameters] }
  | .pull place =>
      match session.enumerations[place]? with
      | none => session
      | some enumeration =>
          { session with
            database := (enumeration.cursor.next session.database).database
            enumerations := session.enumerations.set place (enumeration.pull session.database) }
  | .change change =>
      { session with database := change session.database }

/-- Events one after another. -/
def run
    (session : Session σ)
    (events : List (SessionEvent σ)) :
    Session σ :=
  events.foldl step session

/-- An event keeps all enumerations to the protocol. -/
theorem enumerates_step
    {session : Session σ}
    (enumerates : ∀ enumeration ∈ session.enumerations, enumeration.Enumerates session.plan)
    (event : SessionEvent σ) :
    (session.step event).plan = session.plan ∧
      ∀ enumeration ∈ (session.step event).enumerations,
        enumeration.Enumerates session.plan := by
  cases event with
  | start parameters =>
      refine ⟨rfl, ?_⟩
      simp only [step, List.forall_mem_append, List.forall_mem_singleton]
      exact ⟨enumerates, .notPulled rfl rfl⟩
  | pull place =>
      cases pulled : session.enumerations[place]? with
      | none =>
          simpa [step, pulled] using enumerates
      | some enumeration =>
          simp only [step, pulled, true_and]
          intro other isOther
          rcases List.mem_or_eq_of_mem_set isOther with isOld | rfl
          · exact enumerates other isOld
          · exact (enumerates enumeration (List.mem_of_getElem? pulled)).pull _
  | change change =>
      exact ⟨rfl, enumerates⟩

/-- Events keep all enumerations to the protocol. -/
theorem enumerates_run
    (events : List (SessionEvent σ))
    {session : Session σ}
    (enumerates : ∀ enumeration ∈ session.enumerations, enumeration.Enumerates session.plan) :
    ∀ enumeration ∈ (session.run events).enumerations, enumeration.Enumerates session.plan := by
  induction events generalizing session with
  | nil =>
      exact enumerates
  | cons event events inductionHypothesis =>
      obtain ⟨samePlan, enumeratesNext⟩ := enumerates_step enumerates event
      rw [← samePlan] at enumeratesNext ⊢
      exact inductionHypothesis enumeratesNext

end Session

namespace Cursor

variable {plan : QueryPlan} {parameters : Parameters}

/-- Pulling rows until there are none left or a failure comes, and what was collected. -/
inductive Collects :
    Cursor → Database σ → Except Error (List Record) → Database σ → Prop
  | finished
    {cursor next : Cursor}
    {database after : Database σ}
    (pulled : cursor.next database = ⟨none, next, after⟩) :
    Collects cursor database (.ok []) after
  | failed
    {cursor next : Cursor}
    {database after : Database σ}
    {e : Error}
    (pulled : cursor.next database = ⟨some (.error e), next, after⟩) :
    Collects cursor database (.error e) after
  | row
    {cursor next : Cursor}
    {database between after : Database σ}
    {record : Record}
    {outcome : Except Error (List Record)}
    (pulled : cursor.next database = ⟨some (.ok record), next, between⟩)
    (rest : Collects next between outcome after) :
    Collects cursor database (outcome.map (record :: ·)) after

/-- There is one thing that can be collected. -/
theorem Collects.unique
    {cursor : Cursor}
    {database after afterOther : Database σ}
    {outcome other : Except Error (List Record)}
    (collects : Collects cursor database outcome after)
    (collectsOther : Collects cursor database other afterOther) :
    outcome = other ∧ after = afterOther := by
  induction collects generalizing other afterOther with
  | finished pulled =>
      cases collectsOther <;> simp_all
  | failed pulled =>
      cases collectsOther <;> simp_all
  | row pulled rest inductionHypothesis =>
      cases collectsOther with
      | finished pulledThere => simp [pulled] at pulledThere
      | failed pulledThere => simp [pulled] at pulledThere
      | row pulledThere restThere =>
          simp only [pulled, Pull.mk.injEq, Option.some.injEq, Except.ok.injEq] at pulledThere
          obtain ⟨rfl, rfl, rfl⟩ := pulledThere
          obtain ⟨rfl, rfl⟩ := inductionHypothesis restThere
          exact ⟨rfl, rfl⟩

/-- Rows that are handed out are all collected. -/
theorem collects_of_handOut
    {cursor : Cursor}
    {database after : Database σ}
    {rows : List Record}
    (pulled : cursor.next database = handOut plan after rows) :
    Collects cursor database (.ok rows) after := by
  induction rows generalizing cursor database with
  | nil => exact .finished pulled
  | cons row rows inductionHypothesis =>
      have rest : Collects ⟨plan, .handingOut rows⟩ after (.ok rows) after :=
        inductionHypothesis rfl
      exact .row pulled rest

/-- What is collected from a waiting cursor is the result of a run. -/
theorem collects_start_iff
    {database after : Database σ}
    {outcome : Except Error (List Record)} :
    Collects (start plan parameters) database outcome after ↔
      database.run plan parameters = (outcome, after) := by
  have collects : Collects (start plan parameters) database
      (database.run plan parameters).1 (database.run plan parameters).2 := by
    rcases ran : database.run plan parameters with ⟨e | rows, between⟩
    · have pulled : (start plan parameters).next database =
          ⟨some (.error e), ⟨plan, .failed⟩, between⟩ := by
        simp only [next, start, ran]
      exact .failed pulled
    · have pulled : (start plan parameters).next database = handOut plan between rows := by
        simp only [next, start, ran]
      exact collects_of_handOut pulled
  constructor
  · intro collected
    obtain ⟨rfl, rfl⟩ := collects.unique collected
    rfl
  · intro ran
    rwa [ran] at collects

end Cursor

namespace QueryPlan

/-- How a plan is enumerated: one run each time, when the first row is asked for. -/
structure RunsOnDemand
    (plan : QueryPlan) :
    Prop where
  protocol : ∀ {σ : Type} (database : Database σ) (events : List (SessionEvent σ)),
    ∀ enumeration ∈ (Session.run ⟨plan, database, []⟩ events).enumerations,
      enumeration.FollowsProtocol plan
  logged : ∀ {σ : Type} (cursor : Cursor) (database : Database σ),
    (cursor.next database.recorded).item? = (cursor.next database).item? ∧
      (cursor.next database.recorded).cursor = (cursor.next database).cursor ∧
      (cursor.next database.recorded).database.world.1 = (cursor.next database).database.world
  collected : ∀ {σ : Type} (database after : Database σ) (parameters : Parameters)
    (outcome : Except Error (List Record)),
    Cursor.Collects (.start plan parameters) database outcome after ↔
      database.run plan parameters = (outcome, after)

/--
However the enumerations of a plan take turns and whatever changes in between,
each runs the plan once, in its first pull, and then hands out what that gave.
-/
theorem runsOnDemand
    (plan : QueryPlan) :
    plan.RunsOnDemand where
  protocol database events enumeration isEnumeration := by
    have noneYet : ∀ enumeration ∈ (⟨plan, database, []⟩ : Session _).enumerations,
        enumeration.Enumerates plan := by
      simp
    exact (Session.enumerates_run events noneYet enumeration isEnumeration).followsProtocol
  logged := Cursor.next_recorded
  collected _ _ _ _ := Cursor.collects_start_iff

end QueryPlan

end FullTextQuery
