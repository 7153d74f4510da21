import FullTextQuery.Proofs.Outcome

/-!
# Related outcomes

Two computations that both fail, or both succeed with related results.  What an
error says is left out, so each is compared by what it hands out as an option.
-/

namespace Option

/-- Related options lead to related options if related values do. -/
theorem Rel.bind
    {relation : α → β → Prop}
    {next : γ → δ → Prop}
    {a? : Option α}
    {b? : Option β}
    {f : α → Option γ}
    {g : β → Option δ}
    (related : Rel relation a? b?)
    (leads : ∀ a b, relation a b → Rel next (f a) (g b)) :
    Rel next (a?.bind f) (b?.bind g) := by
  cases related with
  | none => exact .none
  | some here => exact leads _ _ here

theorem Rel.map
    {relation : α → β → Prop}
    {next : γ → δ → Prop}
    {a? : Option α}
    {b? : Option β}
    {f : α → γ}
    {g : β → δ}
    (related : Rel relation a? b?)
    (leads : ∀ a b, relation a b → next (f a) (g b)) :
    Rel next (a?.map f) (b?.map g) := by
  cases related with
  | none => exact .none
  | some here => exact .some (leads _ _ here)

/-- Related values are related otherwise too if this is known of what the options hold. -/
theorem Rel.imp_of_mem
    {relation next : α → β → Prop}
    {a? : Option α}
    {b? : Option β}
    (related : Rel relation a? b?)
    (follows : ∀ a ∈ a?, ∀ b ∈ b?, relation a b → next a b) :
    Rel next a? b? := by
  cases related with
  | none => exact .none
  | some here => exact .some (follows _ rfl _ rfl here)

/-- Working through lists element by element, with related options, leads to related ones. -/
theorem Rel.mapM
    {relation : γ → δ → Prop}
    {f : α → Option γ}
    {g : β → Option δ}
    {items : List α}
    {others : List β}
    (each : List.Forall₂ (fun a b => Rel relation (f a) (g b)) items others) :
    Rel (List.Forall₂ relation) (items.mapM f) (others.mapM g) := by
  induction each with
  | nil => exact .some .nil
  | cons first _ inductionHypothesis =>
      rw [List.mapM_cons, List.mapM_cons]
      exact first.bind fun _ _ here => inductionHypothesis.bind fun _ _ rest =>
        .some (.cons here rest)

@[simp] theorem rel_eq_iff
    {a? b? : Option α} :
    Rel (· = ·) a? b? ↔ a? = b? := by
  constructor
  · rintro (rfl | _) <;> rfl
  · rintro rfl
    cases a? with
    | none => exact .none
    | some a => exact .some rfl

end Option

namespace Except

theorem toOption_eq_some
    {outcome : Except ε α}
    {a : α} :
    outcome.toOption = some a ↔ outcome = .ok a := by
  cases outcome <;> simp [Except.toOption]

theorem toOption_bind
    {first : Except ε α}
    {next : α → Except ε β} :
    (first >>= next).toOption = first.toOption.bind fun a => (next a).toOption := by
  cases first <;> rfl

@[simp] theorem toOption_map
    {f : α → β}
    {outcome : Except ε α} :
    (outcome.map f).toOption = outcome.toOption.map f := by
  cases outcome <;> rfl

@[simp] theorem toOption_mapError
    {f : ε → δ}
    {outcome : Except ε α} :
    (outcome.mapError f).toOption = outcome.toOption := by
  cases outcome <;> rfl

/--
Whether two outcomes have related results.  Unless they are taken leniently, they are also
both failures or both successes.
-/
structure Related
    (lenient : Prop)
    (relation : α → β → Prop)
    (first : Except ε α)
    (second : Except δ β) :
    Prop where
  results : ∀ {a b}, first = .ok a → second = .ok b → relation a b
  success : ¬lenient → ((∃ a, first = .ok a) ↔ ∃ b, second = .ok b)

namespace Related

variable {lenient : Prop} {relation : α → β → Prop} {next : α' → β' → Prop}

theorem ok
    {a : α}
    {b : β}
    (related : relation a b) :
    Related lenient relation (.ok a : Except ε α) (.ok b : Except δ β) where
  results := by
    rintro _ _ ⟨⟩ ⟨⟩
    exact related
  success := fun _ => ⟨fun _ => ⟨b, rfl⟩, fun _ => ⟨a, rfl⟩⟩

theorem error
    {e : ε}
    {d : δ} :
    Related lenient relation (.error e) (.error d) where
  results := nofun
  success := fun _ => ⟨nofun, nofun⟩

/-- An outcome is related to itself by a relation that its result has to itself. -/
theorem refl
    {relation : α → α → Prop}
    (itself : ∀ a, relation a a)
    (outcome : Except ε α) :
    Related lenient relation outcome outcome := by
  cases outcome with
  | error e => exact .error
  | ok a => exact .ok (itself a)

/-- Outcomes stay related whatever becomes of their errors. -/
theorem mapError
    {first : Except ε α}
    {second : Except δ β}
    {f : ε → ε'}
    {g : δ → δ'}
    (related : Related lenient relation first second) :
    Related lenient relation (first.mapError f) (second.mapError g) where
  results := fun isFirst isSecond =>
    related.results (mapError_eq_ok.mp isFirst) (mapError_eq_ok.mp isSecond)
  success := fun strict => by simpa using related.success strict

/-- Related outcomes lead to related outcomes if related results do. -/
theorem bind
    {first : Except ε α}
    {second : Except δ β}
    {f : α → Except ε α'}
    {g : β → Except δ β'}
    (related : Related lenient relation first second)
    (leads : ∀ a b, relation a b → Related lenient next (f a) (g b)) :
    Related lenient next (first >>= f) (second >>= g) where
  results := by
    intro c d firstSucceeds secondSucceeds
    obtain ⟨a, isFirst, firstLeads⟩ := bind_eq_ok.mp firstSucceeds
    obtain ⟨b, isSecond, secondLeads⟩ := bind_eq_ok.mp secondSucceeds
    exact (leads a b (related.results isFirst isSecond)).results firstLeads secondLeads
  success := by
    intro strict
    simp only [bind_eq_ok]
    constructor
    · rintro ⟨c, a, isFirst, firstLeads⟩
      obtain ⟨b, isSecond⟩ := (related.success strict).mp ⟨a, isFirst⟩
      have here := leads a b (related.results isFirst isSecond)
      obtain ⟨d, secondLeads⟩ := (here.success strict).mp ⟨c, firstLeads⟩
      exact ⟨d, b, isSecond, secondLeads⟩
    · rintro ⟨d, b, isSecond, secondLeads⟩
      obtain ⟨a, isFirst⟩ := (related.success strict).mpr ⟨b, isSecond⟩
      have here := leads a b (related.results isFirst isSecond)
      obtain ⟨c, firstLeads⟩ := (here.success strict).mpr ⟨d, secondLeads⟩
      exact ⟨c, a, isFirst, firstLeads⟩

/-- Working through lists element by element, with related outcomes, leads to related ones. -/
theorem mapM
    {f : α → Except ε α'}
    {g : β → Except δ β'}
    {items : List α}
    {others : List β}
    (each : List.Forall₂ (fun a b => Related lenient next (f a) (g b)) items others) :
    Related lenient (List.Forall₂ next) (items.mapM f) (others.mapM g) := by
  induction each with
  | nil => exact .ok .nil
  | cons first _ inductionHypothesis =>
      rw [List.mapM_cons, List.mapM_cons]
      exact first.bind fun _ _ here => inductionHypothesis.bind fun _ _ rest =>
        .ok (.cons here rest)

/-- Outcomes that are not taken leniently are the same options if their results are the same. -/
theorem toOption_eq
    {first : Except ε α}
    {second : Except δ α}
    (related : Related lenient (fun a b => b = a) first second)
    (strict : ¬lenient) :
    second.toOption = first.toOption := by
  cases first with
  | error e =>
      cases second with
      | error d => rfl
      | ok b => exact absurd ((related.success strict).mpr ⟨b, rfl⟩) (by simp)
  | ok a =>
      obtain ⟨b, rfl⟩ := (related.success strict).mp ⟨a, rfl⟩
      rw [related.results rfl rfl]
      rfl

end Related

end Except
