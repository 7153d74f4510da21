import FullTextQuery.Proofs.Model.Built
import Mathlib.Data.Finset.Card
import Mathlib.Data.List.Induction

/-!
# The first valid entity of a name

Entities are added one after another to the empty model, and those that are not well formed
are refused.  Under a name the model then has the first well-formed entity of that name: an
addition neither changes nor removes what was there before, and one that is refused changes
nothing.  So all entities of a model are well formed, and their single keys are properties.
-/

namespace FullTextQuery

/-- Whether a name is a letter or an underscore in front of letters, digits and underscores. -/
def IdentifierShaped
    (name : String) :
    Prop :=
  ∃ c rest, name.toList = c :: rest ∧ (c.isAlpha = true ∨ c = '_') ∧
    ∀ d ∈ rest, d.isAlphanum = true ∨ d = '_'

theorem isIdentifier_iff_shaped
    {name : String} :
    isIdentifier name = true ↔ IdentifierShaped name := by
  unfold isIdentifier IdentifierShaped
  cases name.toList <;> simp

namespace Entity

/-- An entity with proper names, each property once, whose key is made of properties. -/
structure WellFormed
    (entity : Entity) :
    Prop where
  name : IdentifierShaped entity.name
  table : IdentifierShaped entity.table
  properties : ∀ property ∈ entity.properties,
    IdentifierShaped property.name ∧ IdentifierShaped property.column
  distinct : (entity.properties.map (·.name)).Nodup
  key : ∀ name ∈ entity.primaryKey, name ∈ entity.properties.map (·.name)

variable {entity : Entity}

theorem isSome_property?_iff
    {name : String} :
    (entity.property? name).isSome = true ↔ name ∈ entity.properties.map (·.name) := by
  simp [property?, List.find?_isSome]

/-- The check lets well-formed entities pass, and no others. -/
theorem check_eq_ok_iff_wellFormed :
    entity.check = .ok () ↔ entity.WellFormed := by
  simp only [check_eq_ok, checkProperty_eq_ok, checkKey_eq_ok, isIdentifier_iff_shaped,
    isSome_property?_iff]
  constructor
  · rintro ⟨name, table, properties, key⟩
    exact ⟨name, table, fun property member => ⟨(properties property member).1,
      (properties property member).2.1⟩, nodup_properties_iff.mpr fun property member =>
        (properties property member).2.2, key⟩
  · rintro ⟨name, table, properties, distinct, key⟩
    exact ⟨name, table, fun property member => ⟨(properties property member).1,
      (properties property member).2, nodup_properties_iff.mp distinct property member⟩, key⟩

instance (entity : Entity) : Decidable entity.WellFormed :=
  decidable_of_iff _ check_eq_ok_iff_wellFormed

/-- The single key of a well-formed entity is the one property that its key names. -/
theorem WellFormed.singleKey_eq_ok_iff
    (wellFormed : entity.WellFormed)
    {property : Property} :
    entity.singleKey = .ok property ↔
      property ∈ entity.properties ∧ entity.primaryKey = [property.name] := by
  rw [singleKey_eq_ok, keyProperty?]
  constructor
  · intro isKey
    split at isKey
    · rename_i key shape
      have isNamed : property.name = key := by simpa using List.find?_some isKey
      exact ⟨List.mem_of_find?_eq_some isKey, by rw [shape, isNamed]⟩
    · cases isKey
  · rintro ⟨isProperty, shape⟩
    have present := isSome_property?_iff.mpr (wellFormed.key property.name (by simp [shape]))
    obtain ⟨found, isFound⟩ := Option.isSome_iff_exists.mp present
    have sameName : found.name = property.name := by simpa using List.find?_some isFound
    have isOther := List.mem_of_find?_eq_some isFound
    obtain rfl := List.inj_on_of_nodup_map wellFormed.distinct isOther isProperty sameName
    simpa [shape] using isFound

/-- A well-formed entity has a single key exactly if its key is one name. -/
theorem WellFormed.exists_singleKey_iff
    (wellFormed : entity.WellFormed) :
    (∃ property, entity.singleKey = .ok property) ↔ entity.primaryKey.length = 1 := by
  rw [List.length_eq_one_iff]
  constructor
  · rintro ⟨property, isKey⟩
    exact ⟨_, (wellFormed.singleKey_eq_ok_iff.mp isKey).2⟩
  · rintro ⟨key, shape⟩
    obtain ⟨property, isProperty, rfl⟩ :=
      List.mem_map.mp (wellFormed.key key (by simp [shape]))
    exact ⟨property, wellFormed.singleKey_eq_ok_iff.mpr ⟨isProperty, shape⟩⟩

/-- A well-formed entity declares all properties of its key. -/
theorem WellFormed.singleKey_ne_invariant
    (wellFormed : entity.WellFormed)
    (cause : InvariantError) :
    entity.singleKey ≠ .error (.invariant cause) := by
  intro failed
  have passed := check_eq_ok_iff_wellFormed.mpr wellFormed
  obtain ⟨_, ⟨⟩⟩ := failsOnlyBy_singleKey passed _ failed

end Entity

namespace Model

variable {model : Model} {entity : Entity}

/-- What an addition makes of a model; one that is refused leaves it as it was. -/
def adding
    (model : Model)
    (entity : Entity) :
    Model :=
  match model.add entity with
  | .ok addition => addition.model
  | .error _ => model

/-- The model after some entities were added one after another, as far as they are accepted. -/
def keeping
    (entities : List Entity) :
    Model :=
  entities.foldl adding empty

/-- The answers to an addition, and the model behind it. -/
inductive Adds (model : Model) (entity : Entity) :
    Except ConfigError Addition → Model → Prop where
  | refused {cause : ConfigError} :
      ¬ entity.WellFormed → Adds model entity (.error cause) model
  | earlier {kept : Entity} :
      entity.WellFormed → model.entity? entity.name = some kept →
        Adds model entity (.ok ⟨kept, true, model⟩) model
  | first {after : Model} :
      entity.WellFormed → model.entity? entity.name = none →
        after.entities = model.entities.insert entity.name entity →
          Adds model entity (.ok ⟨entity, false, after⟩) after

/-- An entity is refused, or there is an earlier one of its name, or it is the first one. -/
theorem adds
    (model : Model)
    (entity : Entity) :
    Adds model entity (model.add entity) (model.adding entity) := by
  unfold adding
  cases outcome : model.add entity with
  | error cause =>
      refine .refused fun wellFormed => ?_
      have passed := Entity.check_eq_ok_iff_wellFormed.mpr wellFormed
      have added : ∃ addition, model.add entity = .ok addition := ⟨_, add_eq_ok.mpr ⟨passed, rfl⟩⟩
      simp [outcome] at added
  | ok addition =>
      obtain ⟨passed, shape⟩ := add_eq_ok.mp outcome
      have wellFormed := Entity.check_eq_ok_iff_wellFormed.mp passed
      cases isKept : model.entity? entity.name with
      | some kept =>
          rw [isKept] at shape
          exact shape ▸ .earlier wellFormed isKept
      | none =>
          rw [isKept] at shape
          exact shape ▸ .first wellFormed isKept rfl

/-- Behind an addition there is what was there before, or else the entity if it is well formed. -/
theorem entity?_adding
    (model : Model)
    (entity : Entity)
    (name : String) :
    (model.adding entity).entity? name =
      (model.entity? name).or
        (if entity.WellFormed ∧ entity.name = name then some entity else none) := by
  have adds := model.adds entity
  generalize model.add entity = outcome, model.adding entity = after at adds
  cases adds with
  | refused notWellFormed => simp [notWellFormed]
  | earlier wellFormed isKept =>
      by_cases isName : entity.name = name
      · subst isName
        simp [isKept]
      · simp [isName]
  | first wellFormed isNew inserted =>
      rw [Model.entity?, inserted, NameMap.get?_insert]
      by_cases isName : name = entity.name
      · subst isName
        rw [if_pos rfl, isNew, if_pos ⟨wellFormed, rfl⟩, Option.none_or]
      · rw [if_neg isName, if_neg fun both => isName both.2.symm, Option.or_none, Model.entity?]

/-- An entity that is not well formed is refused. -/
theorem add_of_not_wellFormed
    (notWellFormed : ¬ entity.WellFormed) :
    (∃ cause, model.add entity = .error cause) ∧ model.adding entity = model := by
  have adds := model.adds entity
  generalize model.add entity = outcome, model.adding entity = after at adds
  cases adds with
  | refused => exact ⟨⟨_, rfl⟩, rfl⟩
  | earlier wellFormed => exact absurd wellFormed notWellFormed
  | first wellFormed => exact absurd wellFormed notWellFormed

/-- A well-formed entity is answered by the one that is kept under its name behind it. -/
theorem exists_add_of_wellFormed
    (model : Model)
    (wellFormed : entity.WellFormed) :
    ∃ addition, model.add entity = .ok addition ∧ addition.model = model.adding entity ∧
      addition.model.entity? entity.name = some addition.entity ∧
      (addition.existed = true ↔ (model.entity? entity.name).isSome = true) ∧
      (addition.existed = false → addition.entity = entity) := by
  have behind := model.entity?_adding entity entity.name
  have adds := model.adds entity
  generalize model.add entity = outcome, model.adding entity = after at adds behind
  cases adds with
  | refused notWellFormed => exact absurd wellFormed notWellFormed
  | earlier _ isKept => exact ⟨_, rfl, rfl, isKept, by simp [isKept], by simp⟩
  | first _ isNew =>
      rw [isNew, if_pos ⟨wellFormed, rfl⟩, Option.none_or] at behind
      exact ⟨_, rfl, rfl, behind, by simp [isNew], by simp⟩

/-- An addition brings in at most one new name, behind the others. -/
theorem nodup_names_adding
    (nodup : model.entities.names.Nodup)
    (entity : Entity) :
    (model.adding entity).entities.names.Nodup := by
  have adds := model.adds entity
  generalize model.add entity = outcome, model.adding entity = after at adds
  cases adds with
  | refused => exact nodup
  | earlier => exact nodup
  | first _ isNew inserted =>
      have absent : entity.name ∉ model.entities.names := by
        rw [← NameMap.contains_iff_mem_names, NameMap.contains, ← Model.entity?, isNew]
        simp
      rw [inserted, NameMap.names, NameMap.entries_insert_of_not_mem absent, List.map_append]
      exact nodup.append (List.nodup_singleton _) (by simpa using absent)

section Keeping

variable {entities : List Entity}

@[simp] theorem keeping_append_singleton
    (entities : List Entity)
    (entity : Entity) :
    keeping (entities ++ [entity]) = (keeping entities).adding entity := by
  simp [keeping]

/-- Under a name there is the first well-formed entity of that name. -/
theorem entity?_keeping
    (entities : List Entity)
    (name : String) :
    (keeping entities).entity? name =
      entities.find? fun entity => entity.WellFormed ∧ entity.name = name := by
  induction entities using List.reverseRecOn with
  | nil => rfl
  | append_singleton entities entity inductionHypothesis =>
      rw [keeping_append_singleton, entity?_adding, inductionHypothesis, List.find?_append]
      congr 1
      by_cases isFirst : entity.WellFormed ∧ entity.name = name <;> simp [isFirst]

theorem wellFormed_of_entity?_keeping
    {name : String}
    {kept : Entity}
    (isKept : (keeping entities).entity? name = some kept) :
    kept.WellFormed := by
  rw [entity?_keeping] at isKept
  have good := List.find?_some isKept
  exact (of_decide_eq_true good).1

theorem nodup_names_keeping
    (entities : List Entity) :
    (keeping entities).entities.names.Nodup := by
  induction entities using List.reverseRecOn with
  | nil => exact List.nodup_nil
  | append_singleton entities entity inductionHypothesis =>
      rw [keeping_append_singleton]
      exact nodup_names_adding inductionHypothesis entity

/-- There are as many entities as the well-formed ones have names. -/
theorem size_keeping
    (entities : List Entity) :
    (keeping entities).size =
      ((entities.filter (·.WellFormed)).map (·.name)).toFinset.card := by
  have sameNames : (keeping entities).entities.names.toFinset =
      ((entities.filter (·.WellFormed)).map (·.name)).toFinset := by
    ext name
    rw [List.mem_toFinset, List.mem_toFinset, ← NameMap.contains_iff_mem_names,
      NameMap.contains, ← Model.entity?, entity?_keeping]
    simp [List.find?_isSome, and_assoc]
  rw [← sameNames, List.toFinset_card_of_nodup (nodup_names_keeping entities), size,
    NameMap.size, NameMap.names, List.length_map]

end Keeping

/-- What additions to the empty model come to, one after another. -/
structure KeepsFirst
    (entities : List Entity) :
    Prop where
  /-- An entity that is not well formed is refused, and the model stays as it was. -/
  refused : ∀ entity : Entity, ¬ entity.WellFormed →
    (∃ cause, (keeping entities).add entity = .error cause) ∧
      keeping (entities ++ [entity]) = keeping entities
  /--
  A well-formed entity is answered by the one that is kept under its name, and by whether that
  was there before; what was there before stays there.
  -/
  accepted : ∀ entity : Entity, entity.WellFormed →
    ∃ addition, (keeping entities).add entity = .ok addition ∧
      addition.model = keeping (entities ++ [entity]) ∧
      addition.model.entity? entity.name = some addition.entity ∧
      (addition.existed = true ↔ ((keeping entities).entity? entity.name).isSome = true) ∧
      (addition.existed = false → addition.entity = entity) ∧
      ∀ name kept, (keeping entities).entity? name = some kept →
        addition.model.entity? name = some kept
  /-- Under a name there is the first well-formed entity of that name. -/
  first : ∀ name, (keeping entities).entity? name =
    entities.find? fun entity => entity.WellFormed ∧ entity.name = name
  /-- There are as many entities as there are names of well-formed ones. -/
  size : (keeping entities).size =
    ((entities.filter (·.WellFormed)).map (·.name)).toFinset.card
  /-- Every entity of the model is well formed. -/
  wellFormed : ∀ name kept, (keeping entities).entity? name = some kept → kept.WellFormed
  /-- An entity of the model has a single key exactly if its key is one name, of a property. -/
  singleKey : ∀ name kept, (keeping entities).entity? name = some kept →
    (∀ cause, kept.singleKey ≠ .error (.invariant cause)) ∧
      ((∃ property, kept.singleKey = .ok property) ↔ kept.primaryKey.length = 1) ∧
      ∀ property, kept.singleKey = .ok property ↔
        property ∈ kept.properties ∧ kept.primaryKey = [property.name]

/-- A model keeps the first well-formed entity of each name, and nothing else. -/
theorem keepsFirst
    (entities : List Entity) :
    KeepsFirst entities where
  refused entity notWellFormed := by
    rw [keeping_append_singleton]
    exact add_of_not_wellFormed notWellFormed
  accepted entity wellFormed := by
    rw [keeping_append_singleton]
    obtain ⟨addition, added, model, isKept, existed, isNew⟩ :=
      exists_add_of_wellFormed (keeping entities) wellFormed
    refine ⟨addition, added, model, isKept, existed, isNew, fun name kept isKept => ?_⟩
    rw [model, entity?_adding, isKept, Option.some_or]
  first := entity?_keeping entities
  size := size_keeping entities
  wellFormed _ _ := wellFormed_of_entity?_keeping
  singleKey name kept isKept :=
    have wellFormed := wellFormed_of_entity?_keeping isKept
    ⟨wellFormed.singleKey_ne_invariant, wellFormed.exists_singleKey_iff,
      fun _ => wellFormed.singleKey_eq_ok_iff⟩

end Model

end FullTextQuery
