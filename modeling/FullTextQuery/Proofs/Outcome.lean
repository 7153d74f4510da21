import FullTextQuery.Error
import Mathlib.Data.List.Forall2

/-!
# Outcomes

A result or an error, taken apart: what it says about the parts of a
computation that the whole of it succeeds, or fails.  Every later module
opens computations with these lemmas and not by unfolding them.
-/

namespace Except

@[simp] theorem pure_eq_ok
    {a : α} :
    (pure a : Except ε α) = .ok a :=
  rfl

/-- There is a result exactly if it can be handed out as an option. -/
theorem exists_eq_ok_iff
    {outcome : Except ε α} :
    (∃ a, outcome = .ok a) ↔ outcome.toOption.isSome := by
  cases outcome <;> simp [Except.toOption]

@[simp] theorem toOption_ok
    {a : α} :
    (Except.ok a : Except ε α).toOption = some a :=
  rfl

/-- A sequence succeeds exactly if both of its parts do. -/
theorem bind_eq_ok
    {first : Except ε α}
    {next : α → Except ε β}
    {b : β} :
    first >>= next = .ok b ↔
      ∃ a, first = .ok a ∧ next a = .ok b := by
  cases first with
  | error e => simp [bind, Except.bind]
  | ok a => simp [bind, Except.bind]

/-- A sequence fails exactly if its first part does, or the second behind the first. -/
theorem bind_eq_error
    {first : Except ε α}
    {next : α → Except ε β}
    {e : ε} :
    first >>= next = .error e ↔
      first = .error e ∨ ∃ a, first = .ok a ∧ next a = .error e := by
  cases first with
  | error e => simp [bind, Except.bind]
  | ok a => simp [bind, Except.bind]

@[simp] theorem ok_bind
    {a : α}
    {next : α → Except ε β} :
    (Except.ok a >>= next) = next a :=
  rfl

@[simp] theorem error_bind
    {e : ε}
    {next : α → Except ε β} :
    (Except.error e >>= next) = .error e :=
  rfl

@[simp] theorem map_eq_ok
    {f : α → β}
    {outcome : Except ε α}
    {b : β} :
    outcome.map f = .ok b ↔ ∃ a, outcome = .ok a ∧ f a = b := by
  cases outcome <;> simp [Except.map]

@[simp] theorem map_eq_error
    {f : α → β}
    {outcome : Except ε α}
    {e : ε} :
    outcome.map f = .error e ↔ outcome = .error e := by
  cases outcome <;> simp [Except.map]

@[simp] theorem functor_map_eq
    {f : α → β}
    {outcome : Except ε α} :
    f <$> outcome = outcome.map f :=
  rfl

@[simp] theorem mapError_eq_ok
    {f : ε → δ}
    {outcome : Except ε α}
    {a : α} :
    outcome.mapError f = .ok a ↔ outcome = .ok a := by
  cases outcome <;> simp [Except.mapError]

@[simp] theorem mapError_eq_error
    {f : ε → δ}
    {outcome : Except ε α}
    {d : δ} :
    outcome.mapError f = .error d ↔ ∃ e, outcome = .error e ∧ f e = d := by
  cases outcome <;> simp [Except.mapError]

/-- Working through a list succeeds exactly if it does so element by element. -/
theorem mapM_eq_ok
    {f : α → Except ε β}
    {items : List α}
    {results : List β} :
    items.mapM f = .ok results ↔
      List.Forall₂ (fun item result => f item = .ok result) items results := by
  induction items generalizing results with
  | nil =>
      simp [eq_comm]
  | cons item rest inductionHypothesis =>
      simp only [List.mapM_cons, bind_eq_ok, pure_eq_ok, Except.ok.injEq,
        inductionHypothesis]
      constructor
      · rintro ⟨result, itemResult, others, restResults, rfl⟩
        exact .cons itemResult restResults
      · rintro (_ | ⟨itemResult, restResults⟩)
        exact ⟨_, itemResult, _, restResults, rfl⟩

/-- A check of every element of a list passes exactly if every single one does. -/
theorem forM_eq_ok
    {check : α → Except ε PUnit}
    {items : List α} :
    items.forM check = .ok ⟨⟩ ↔ ∀ item ∈ items, check item = .ok ⟨⟩ := by
  induction items with
  | nil =>
      simp
  | cons item rest inductionHypothesis =>
      rw [List.forM_eq_forM] at inductionHypothesis ⊢
      simp only [List.forM_cons, bind_eq_ok, inductionHypothesis, List.forall_mem_cons]
      constructor
      · rintro ⟨_, itemPasses, restPasses⟩
        exact ⟨itemPasses, restPasses⟩
      · rintro ⟨itemPasses, restPasses⟩
        exact ⟨_, itemPasses, restPasses⟩

/-- Working through a list fails with the error of the first element that has one. -/
theorem mapM_eq_error
    {f : α → Except ε β}
    {items : List α}
    {e : ε} :
    items.mapM f = .error e ↔
      ∃ before item others, items = before ++ item :: others ∧
        (∀ earlier ∈ before, ∃ result, f earlier = .ok result) ∧ f item = .error e := by
  constructor
  · intro failed
    induction items with
    | nil => simp at failed
    | cons item rest inductionHypothesis =>
        simp only [List.mapM_cons, bind_eq_error] at failed
        rcases failed with itemFailed | ⟨result, itemResult, restFailed | ⟨_, _, impossible⟩⟩
        · exact ⟨[], item, rest, rfl, by simp, itemFailed⟩
        · obtain ⟨before, other, others, rfl, succeed, otherFailed⟩ :=
            inductionHypothesis restFailed
          exact ⟨item :: before, other, others, rfl,
            List.forall_mem_cons.mpr ⟨⟨result, itemResult⟩, succeed⟩, otherFailed⟩
        · simp at impossible
  · rintro ⟨before, item, others, rfl, succeed, failed⟩
    induction before with
    | nil => rw [List.nil_append, List.mapM_cons, failed, error_bind]
    | cons first rest inductionHypothesis =>
        obtain ⟨⟨result, firstResult⟩, restSucceed⟩ := List.forall_mem_cons.mp succeed
        rw [List.cons_append, List.mapM_cons, firstResult, ok_bind,
          inductionHypothesis restSucceed, error_bind]

/-- Working through a list from a start succeeds only if it does so at every element. -/
theorem exists_of_foldlM_eq_ok
    {step : β → α → Except ε β}
    {items : List α}
    {start result : β}
    (success : items.foldlM step start = .ok result) :
    ∀ item ∈ items, ∃ before after, step before item = .ok after := by
  induction items generalizing start with
  | nil => simp
  | cons item rest inductionHypothesis =>
      obtain ⟨after, first, others⟩ := bind_eq_ok.mp success
      exact List.forall_mem_cons.mpr ⟨⟨start, after, first⟩, inductionHypothesis others⟩

/-- An outcome whose errors are all of one kind. -/
def FailsOnlyBy
    (kind : ε → Prop)
    (outcome : Except ε α) :
    Prop :=
  ∀ e, outcome = .error e → kind e

namespace FailsOnlyBy

theorem ok
    {kind : ε → Prop}
    {a : α} :
    FailsOnlyBy kind (.ok a : Except ε α) := by
  intro e impossible
  cases impossible

theorem bind
    {kind : ε → Prop}
    {first : Except ε α}
    {next : α → Except ε β}
    (firstFails : first.FailsOnlyBy kind)
    (nextFails : ∀ a, first = .ok a → (next a).FailsOnlyBy kind) :
    (first >>= next).FailsOnlyBy kind := by
  intro e failed
  rcases bind_eq_error.mp failed with firstFailed | ⟨a, succeeded, nextFailed⟩
  · exact firstFails e firstFailed
  · exact nextFails a succeeded e nextFailed

theorem map
    {kind : ε → Prop}
    {f : α → β}
    {outcome : Except ε α}
    (fails : outcome.FailsOnlyBy kind) :
    (outcome.map f).FailsOnlyBy kind := by
  intro e failed
  exact fails e (map_eq_error.mp failed)

theorem mapM
    {kind : ε → Prop}
    {f : α → Except ε β}
    {items : List α}
    (fails : ∀ item ∈ items, (f item).FailsOnlyBy kind) :
    (items.mapM f).FailsOnlyBy kind := by
  intro e failed
  obtain ⟨before, item, others, rfl, -, itemFailed⟩ := mapM_eq_error.mp failed
  exact fails item (by simp) e itemFailed

theorem mapError
    {kind : δ → Prop}
    {f : ε → δ}
    {outcome : Except ε α}
    (fails : ∀ e, kind (f e)) :
    (outcome.mapError f).FailsOnlyBy kind := by
  intro d failed
  obtain ⟨e, _, rfl⟩ := mapError_eq_error.mp failed
  exact fails e

theorem foldlM
    {kind : ε → Prop}
    {step : β → α → Except ε β}
    {items : List α}
    (fails : ∀ item ∈ items, ∀ b, (step b item).FailsOnlyBy kind)
    (b : β) :
    (items.foldlM step b).FailsOnlyBy kind := by
  induction items generalizing b with
  | nil => exact .ok
  | cons item rest inductionHypothesis =>
      obtain ⟨itemFails, restFails⟩ := List.forall_mem_cons.mp fails
      exact .bind (itemFails b) fun between _ => inductionHypothesis restFails between

end FailsOnlyBy

end Except

namespace FullTextQuery.Error

/-- Whether a failure says that a query has no meaning over the model. -/
def IsPlan
    (e : Error) :
    Prop :=
  ∃ cause, e = .plan cause

/-- A failure of planning that is carried on stays one. -/
theorem failsOnlyBy_mapError_plan
    (outcome : Except PlanError α) :
    (outcome.mapError Error.plan).FailsOnlyBy IsPlan := by
  intro e failed
  obtain ⟨cause, _, rfl⟩ := Except.mapError_eq_error.mp failed
  exact ⟨cause, rfl⟩

end FullTextQuery.Error
