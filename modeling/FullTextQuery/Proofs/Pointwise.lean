import Mathlib.Data.List.Forall2

namespace List

/-!
# Lists related element by element
-/

/-- What follows for related elements of two lists follows for the lists. -/
theorem forall₂_imp_of_mem
    {first second : α → β → Prop}
    {items : List α}
    {others : List β}
    (follows : ∀ item ∈ items, ∀ other ∈ others, first item other → second item other)
    (related : Forall₂ first items others) :
    Forall₂ second items others := by
  induction related with
  | nil =>
      exact .nil
  | cons itemRelated restRelated inductionHypothesis =>
      refine .cons (follows _ (by simp) _ (by simp) itemRelated) (inductionHypothesis ?_)
      intro item isItem other isOther
      exact follows item (by simp [isItem]) other (by simp [isOther])

/-- Relations that agree on the elements of a list relate it to the same lists. -/
theorem forall₂_congr_of_mem
    {first second : α → β → Prop}
    {items : List α}
    {others : List β}
    (agree : ∀ item ∈ items, ∀ other, first item other ↔ second item other) :
    Forall₂ first items others ↔ Forall₂ second items others :=
  ⟨forall₂_imp_of_mem fun item isItem other _ => (agree item isItem other).mp,
    forall₂_imp_of_mem fun item isItem other _ => (agree item isItem other).mpr⟩

/-- A list whose elements all have a related one is related to some list. -/
theorem exists_forall₂_iff
    {relation : α → β → Prop}
    {items : List α} :
    (∃ others, Forall₂ relation items others) ↔
      ∀ item ∈ items, ∃ other, relation item other := by
  induction items with
  | nil =>
      simp
  | cons item rest inductionHypothesis =>
      rw [forall_mem_cons, ← inductionHypothesis]
      constructor
      · rintro ⟨_, _ | ⟨related, restRelated⟩⟩
        exact ⟨⟨_, related⟩, ⟨_, restRelated⟩⟩
      · rintro ⟨⟨other, related⟩, others, restRelated⟩
        exact ⟨other :: others, .cons related restRelated⟩

/-- What is related to the elements of a list is related to one of them each. -/
theorem exists_of_forall₂_right
    {relation : α → β → Prop}
    {items : List α}
    {others : List β}
    (related : Forall₂ relation items others)
    {other : β}
    (isOther : other ∈ others) :
    ∃ item ∈ items, relation item other := by
  induction related with
  | nil =>
      simp at isOther
  | cons itemRelated _ inductionHypothesis =>
      rcases List.mem_cons.mp isOther with rfl | inRest
      · exact ⟨_, by simp, itemRelated⟩
      · obtain ⟨item, isItem, itemRelated⟩ := inductionHypothesis inRest
        exact ⟨item, by simp [isItem], itemRelated⟩

/-- Lists that agree element by element under two functions have the same elements under them. -/
theorem flatMap_eq_of_forall₂
    {f : α → List γ}
    {g : β → List γ}
    {items : List α}
    {others : List β}
    (agree : Forall₂ (fun item other => f item = g other) items others) :
    items.flatMap f = others.flatMap g := by
  induction agree with
  | nil => rfl
  | cons same _ inductionHypothesis => rw [flatMap_cons, flatMap_cons, same, inductionHypothesis]

/-- Being related through a list between is being related by the composition. -/
theorem forall₂_comp
    {first : α → β → Prop}
    {second : β → γ → Prop}
    {items : List α}
    {others : List γ} :
    (∃ between, Forall₂ first items between ∧ Forall₂ second between others) ↔
      Forall₂ (fun item other => ∃ middle, first item middle ∧ second middle other)
        items others := by
  induction items generalizing others with
  | nil =>
      simp
  | cons item rest inductionHypothesis =>
      constructor
      · rintro ⟨_, _ | ⟨itemFirst, restFirst⟩, _ | ⟨itemSecond, restSecond⟩⟩
        exact .cons ⟨_, itemFirst, itemSecond⟩
          (inductionHypothesis.mp ⟨_, restFirst, restSecond⟩)
      · rintro (_ | ⟨⟨middle, itemFirst, itemSecond⟩, restRelated⟩)
        obtain ⟨between, restFirst, restSecond⟩ := inductionHypothesis.mpr restRelated
        exact ⟨middle :: between, .cons itemFirst restFirst, .cons itemSecond restSecond⟩

/-- Two lists related to a third one are related to a list that completes the square. -/
theorem exists_forall₂_square
    {first : α → β → Prop}
    {second : α → γ → Prop}
    {third : β → δ → Prop}
    {fourth : γ → δ → Prop}
    {items : List α}
    {others : List β}
    {results : List γ}
    (completes : ∀ {item other result}, first item other → second item result →
      ∃ corner, third other corner ∧ fourth result corner)
    (related : Forall₂ first items others)
    (hasResults : Forall₂ second items results) :
    ∃ corners, Forall₂ third others corners ∧ Forall₂ fourth results corners := by
  induction related generalizing results with
  | nil =>
      obtain rfl := forall₂_nil_left_iff.mp hasResults
      exact ⟨[], .nil, .nil⟩
  | cons itemRelated _ inductionHypothesis =>
      obtain ⟨result, rest, itemResult, restResults, rfl⟩ := forall₂_cons_left_iff.mp hasResults
      obtain ⟨corner, third, fourth⟩ := completes itemRelated itemResult
      obtain ⟨corners, thirds, fourths⟩ := inductionHypothesis restResults
      exact ⟨corner :: corners, .cons third thirds, .cons fourth fourths⟩

/-- Working through a list has a result exactly if it has one element by element. -/
theorem mapM_eq_some
    {f : α → Option β}
    {items : List α}
    {results : List β} :
    items.mapM f = some results ↔
      Forall₂ (fun item result => f item = some result) items results := by
  induction items generalizing results with
  | nil =>
      simp [eq_comm]
  | cons item rest inductionHypothesis =>
      simp only [mapM_cons, Option.bind_eq_bind, Option.bind_eq_some_iff, Option.pure_def,
        Option.some.injEq, inductionHypothesis]
      constructor
      · rintro ⟨result, itemResult, others, restResults, rfl⟩
        exact .cons itemResult restResults
      · rintro (_ | ⟨itemResult, restResults⟩)
        exact ⟨_, itemResult, _, restResults, rfl⟩

/-- What every element of a list has is all that the list has. -/
theorem filterMap_eq_of_forall₂
    {f : α → Option β}
    {items : List α}
    {results : List β}
    (related : Forall₂ (fun item result => f item = some result) items results) :
    items.filterMap f = results := by
  induction related with
  | nil => rfl
  | cons has _ inductionHypothesis => rw [filterMap_cons_some has, inductionHypothesis]

end List
