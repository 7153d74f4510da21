import FullTextQuery.Relational.Lowering
import FullTextQuery.Proofs.Outcome

namespace FullTextQuery.Lowering

/-!
# Lowerings that succeed and lowerings that fail

A lowering starts from a record of searches.  It yields a value and another
record, or it fails.  The lemmas say when the steps that lowerings are made of
do either.
-/

/-- The outcome of a lowering and the record it leaves behind. -/
def runFrom
    (lowering : Lowering α)
    (before : PlannedSearches) :
    Except Error α × PlannedSearches :=
  lowering.run.run before

/-- A lowering succeeds with a value and leaves a record behind. -/
def Yields
    (lowering : Lowering α)
    (before : PlannedSearches)
    (value : α)
    (after : PlannedSearches) :
    Prop :=
  lowering.runFrom before = (.ok value, after)

/-- Whatever record it starts from, a lowering fails only with errors of one kind. -/
def FailsOnlyBy
    (kind : Error → Prop)
    (lowering : Lowering α) :
    Prop :=
  ∀ before, (lowering.runFrom before).1.FailsOnlyBy kind

variable {before after : PlannedSearches} {kind : Error → Prop}

/-- The second of two lowerings goes on where the first stopped, unless that failed. -/
theorem runFrom_bind
    (first : Lowering α)
    (next : α → Lowering β) :
    (first >>= next).runFrom before =
      match first.runFrom before with
      | (.ok a, between) => (next a).runFrom between
      | (.error e, between) => (.error e, between) := by
  simp only [runFrom, ExceptT.run_bind, StateT.run_bind]
  rcases first.run.run before with ⟨_ | _, _⟩ <;> rfl

section Steps

/-- A value is handed out with nothing recorded. -/
theorem yields_pure
    {a value : α} :
    Yields (pure a) before value after ↔ value = a ∧ after = before := by
  constructor
  · rintro ⟨⟩
    exact ⟨rfl, rfl⟩
  · rintro ⟨rfl, rfl⟩
    rfl

/-- An error hands nothing out. -/
theorem not_yields_throw
    {e : Error}
    {value : α} :
    ¬ Yields (throw e) before value after := by
  rintro ⟨⟩

/-- A sequence yields what its second part does behind its first. -/
theorem yields_bind
    {first : Lowering α}
    {next : α → Lowering β}
    {value : β} :
    Yields (first >>= next) before value after ↔
      ∃ a between, Yields first before a between ∧ Yields (next a) between value after := by
  unfold Yields
  rw [runFrom_bind]
  rcases first.runFrom before with ⟨e | a, between⟩
  · simp
  · simp

/-- The recorded searches are handed out as they are. -/
theorem yields_searches
    {recorded : List PlannedSearch} :
    Yields searches before recorded after ↔ recorded = before.recorded ∧ after = before := by
  constructor
  · rintro ⟨⟩
    exact ⟨rfl, rfl⟩
  · rintro ⟨rfl, rfl⟩
    rfl

/-- The next identity is handed out once. -/
theorem yields_nextId
    {id : SearchId} :
    Yields nextId before id after ↔ id = before.lastId + 1 ∧ after = before.advance := by
  constructor
  · rintro ⟨⟩
    exact ⟨rfl, rfl⟩
  · rintro ⟨rfl, rfl⟩
    rfl

/-- A search is recorded behind the others. -/
theorem yields_record
    {search : PlannedSearch}
    {value : Unit} :
    Yields (record search) before value after ↔ after = before.add search := by
  constructor
  · rintro ⟨⟩
    rfl
  · rintro rfl
    rfl

/-- An outcome from elsewhere is handed out with nothing recorded. -/
theorem yields_ofExcept
    {outcome : Except Error α}
    {value : α} :
    Yields (ofExcept outcome) before value after ↔ outcome = .ok value ∧ after = before := by
  cases outcome with
  | error e =>
      simp [ofExcept, not_yields_throw]
  | ok a =>
      simp [ofExcept, yields_pure, eq_comm]

end Steps

namespace FailsOnlyBy

/-- A value does not fail. -/
theorem pure
    (a : α) :
    FailsOnlyBy kind (Pure.pure a : Lowering α) :=
  fun _ => .ok

/-- An error of the kind is one. -/
theorem throw
    {e : Error}
    (isKind : kind e) :
    FailsOnlyBy kind (throw e : Lowering α) := by
  rintro before _ ⟨⟩
  exact isKind

/-- Two lowerings one after the other fail by what either of them fails by. -/
theorem bind
    {first : Lowering α}
    {next : α → Lowering β}
    (firstFails : FailsOnlyBy kind first)
    (nextFails : ∀ a, FailsOnlyBy kind (next a)) :
    FailsOnlyBy kind (first >>= next) := by
  intro before
  rw [runFrom_bind]
  have firstHere := firstFails before
  rcases firstRun : first.runFrom before with ⟨e | a, between⟩
  · rw [firstRun] at firstHere
    intro cause failed
    exact firstHere cause (by cases failed; rfl)
  · exact nextFails a between

/-- Looking at the recorded searches does not fail. -/
theorem searches :
    FailsOnlyBy kind Lowering.searches :=
  fun _ => .ok

/-- Taking the next identity does not fail. -/
theorem nextId :
    FailsOnlyBy kind Lowering.nextId :=
  fun _ => .ok

/-- Recording a search does not fail. -/
theorem record
    (search : PlannedSearch) :
    FailsOnlyBy kind (Lowering.record search) :=
  fun _ => .ok

/-- An outcome from elsewhere fails as it does there. -/
theorem ofExcept
    {outcome : Except Error α}
    (fails : outcome.FailsOnlyBy kind) :
    FailsOnlyBy kind (Lowering.ofExcept outcome) := by
  cases outcome with
  | error e => exact throw (fails e rfl)
  | ok a => exact pure a

/-- What follows a result has to be looked at for that result only. -/
theorem ofExcept_bind
    {outcome : Except Error α}
    {next : α → Lowering β}
    (fails : outcome.FailsOnlyBy kind)
    (nextFails : ∀ a, outcome = .ok a → FailsOnlyBy kind (next a)) :
    FailsOnlyBy kind (Lowering.ofExcept outcome >>= next) := by
  cases outcome with
  | error e =>
      rintro before _ ⟨⟩
      exact fails e rfl
  | ok a =>
      exact nextFails a rfl

/-- Lowerings one after the other fail by what one of them fails by. -/
theorem sequence
    {lowerings : List (Lowering α)}
    (fails : ∀ lowering ∈ lowerings, FailsOnlyBy kind lowering) :
    FailsOnlyBy kind (Lowering.sequence lowerings) := by
  induction lowerings with
  | nil =>
      exact pure []
  | cons first rest inductionHypothesis =>
      obtain ⟨firstFails, restFails⟩ := List.forall_mem_cons.mp fails
      exact firstFails.bind fun _ => (inductionHypothesis restFails).bind fun _ => pure _

end FailsOnlyBy

end FullTextQuery.Lowering
