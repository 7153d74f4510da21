import FullTextQuery.Model
import FullTextQuery.Proofs.NameMap
import FullTextQuery.Proofs.Outcome
import Mathlib.Data.List.Nodup

namespace FullTextQuery

/-!
# Models that were built

A model is built by adding entities to the empty one.  Whatever such a model
has under a name is an entity of that name which passed its check, so the
names of its key are properties.
-/

namespace Model

/-- A model made by additions that succeeded; an addition that is refused changes nothing. -/
inductive Built : Model → Prop where
  | empty : Built Model.empty
  | add
      {model : Model}
      {entity : Entity}
      {addition : Addition}
      (built : Built model)
      (added : model.add entity = .ok addition) :
      Built addition.model

/-- An addition succeeds for an entity that passes its check, and keeps an earlier one. -/
theorem add_eq_ok
    {model : Model}
    {entity : Entity}
    {addition : Addition} :
    model.add entity = .ok addition ↔
      entity.check = .ok () ∧
        addition =
          match model.entity? entity.name with
          | some earlier => ⟨earlier, true, model⟩
          | none => ⟨entity, false, ⟨model.entities.insert entity.name entity⟩⟩ := by
  unfold add
  rw [Except.bind_eq_ok]
  constructor
  · rintro ⟨_, passed, success⟩
    refine ⟨passed, ?_⟩
    cases known : model.entity? entity.name <;>
      simpa [known, eq_comm] using success
  · rintro ⟨passed, rfl⟩
    refine ⟨_, passed, ?_⟩
    cases known : model.entity? entity.name <;> simp

namespace Built

/-- A list of entities that are added one after another builds a model. -/
theorem ofEntities
    {entities : List Entity}
    {model : Model}
    (added : Model.ofEntities entities = .ok model) :
    model.Built := by
  suffices general : ∀ start : Model, start.Built →
      entities.foldlM (fun model entity => (·.model) <$> model.add entity) start = .ok model →
      model.Built from general _ .empty added
  clear added
  induction entities with
  | nil =>
      intro start built added
      obtain rfl : start = model := by simpa using added
      exact built
  | cons entity rest inductionHypothesis =>
      intro start built added
      simp only [List.foldlM_cons, Except.bind_eq_ok, Except.functor_map_eq,
        Except.map_eq_ok] at added
      obtain ⟨_, ⟨addition, entityAdded, rfl⟩, restAdded⟩ := added
      exact inductionHypothesis _ (.add built entityAdded) restAdded

/-- What a built model has under a name passed its check and has that name. -/
theorem checked
    {model : Model}
    (built : model.Built)
    {name : String}
    {entity : Entity}
    (known : model.entity? name = some entity) :
    entity.check = .ok () ∧ entity.name = name := by
  induction built generalizing name entity with
  | empty =>
      simp [Model.empty, Model.entity?, NameMap.get?] at known
  | @add model added addition built success inductionHypothesis =>
      obtain ⟨passed, additionShape⟩ := add_eq_ok.mp success
      cases earlierKnown : model.entity? added.name with
      | some earlier =>
          rw [earlierKnown] at additionShape
          subst additionShape
          exact inductionHypothesis known
      | none =>
          rw [earlierKnown] at additionShape
          subst additionShape
          rw [Model.entity?, NameMap.get?_insert] at known
          by_cases isAdded : name = added.name
          · rw [if_pos isAdded, Option.some.injEq] at known
            subst known
            exact ⟨passed, isAdded.symm⟩
          · rw [if_neg isAdded] at known
            exact inductionHypothesis known

end Built

/-- A model of customers that can be searched, and of their orders. -/
def shop : Model where
  entities := ⟨[
    ("Customer", {
      name := "Customer"
      properties := [⟨"Id", .text, "Id"⟩, ⟨"Name", .text, "FullName"⟩]
      primaryKey := ["Id"]
      searchIndex? := some "customers" }),
    ("Order", {
      name := "Order"
      properties := [⟨"Number", .integer, "Number"⟩, ⟨"Buyer", .text, "Buyer"⟩]
      primaryKey := ["Number"] })]⟩

theorem built_shop :
    shop.Built :=
  Built.ofEntities
    (by decide +kernel : Model.ofEntities (shop.entities.entries.map (·.2)) = .ok shop)

end Model

/-- A name that is required to be an identifier is let pass exactly if it is one. -/
theorem requireIdentifier_eq_ok
    {role : NameRole}
    {name : String} :
    requireIdentifier role name = .ok () ↔ isIdentifier name = true := by
  unfold requireIdentifier
  split <;> simp_all

namespace Entity

/-- A property passes its check exactly if its names are identifiers and no other has its name. -/
theorem checkProperty_eq_ok
    {entity : Entity}
    {property : Property} :
    entity.checkProperty property = .ok () ↔
      isIdentifier property.name = true ∧ isIdentifier property.column = true ∧
        entity.properties.countP (·.name == property.name) ≤ 1 := by
  unfold checkProperty
  simp only [Except.bind_eq_ok, Unique.exists_iff, PUnit.default_eq_unit,
    requireIdentifier_eq_ok, and_congr_right_iff]
  intro _ _
  split <;> simp_all

/-- Properties have different names exactly if no name is that of more than one of them. -/
theorem nodup_properties_iff
    {properties : List Property} :
    (properties.map (·.name)).Nodup ↔
      ∀ property ∈ properties, properties.countP (·.name == property.name) ≤ 1 := by
  have count : ∀ name, (properties.map (·.name)).count name =
      properties.countP (·.name == name) := by
    intro name
    rw [List.count, List.countP_map]
    rfl
  simp only [List.nodup_iff_count_le_one, count]
  constructor
  · exact fun once property _ => once property.name
  · intro once name
    rcases Nat.eq_zero_or_pos (properties.countP (·.name == name)) with none | some
    · omega
    · obtain ⟨property, isProperty, isName⟩ := List.countP_pos_iff.mp some
      exact (beq_iff_eq.mp isName) ▸ once property isProperty

/-- A name in a key passes its check exactly if it is a property. -/
theorem checkKey_eq_ok
    {entity : Entity}
    {key : String} :
    entity.checkKey key = .ok () ↔ (entity.property? key).isSome = true := by
  unfold checkKey
  split <;> simp_all

/-- What an entity that passes its check consists of. -/
theorem check_eq_ok
    {entity : Entity} :
    entity.check = .ok () ↔
      isIdentifier entity.name = true ∧ isIdentifier entity.table = true ∧
        (∀ property ∈ entity.properties, entity.checkProperty property = .ok ()) ∧
          ∀ key ∈ entity.primaryKey, entity.checkKey key = .ok () := by
  unfold check
  simp only [Except.bind_eq_ok, Unique.exists_iff, PUnit.default_eq_unit,
    requireIdentifier_eq_ok, Except.forM_eq_ok]

/-- The names of the key of an entity that passes its check are properties. -/
theorem isSome_property?_of_check
    {entity : Entity}
    (passed : entity.check = .ok ())
    {key : String}
    (member : key ∈ entity.primaryKey) :
    (entity.property? key).isSome :=
  checkKey_eq_ok.mp ((check_eq_ok.mp passed).2.2.2 key member)

/-- The property that is the whole key of an entity. -/
def keyProperty?
    (entity : Entity) :
    Option Property :=
  match entity.primaryKey with
  | [key] => entity.property? key
  | _ => none

/-- The single key of an entity is the property that is its whole key. -/
theorem singleKey_eq_ok
    {entity : Entity}
    {key : Property} :
    entity.singleKey = .ok key ↔ entity.keyProperty? = some key := by
  unfold singleKey keyProperty?
  split <;> rename_i shape <;> simp only [shape]
  · simp
  · split <;> simp_all
  · simp

/-- An entity that passes its check lacks a single key for a reason of planning only. -/
theorem failsOnlyBy_singleKey
    {entity : Entity}
    (passed : entity.check = .ok ()) :
    entity.singleKey.FailsOnlyBy Error.IsPlan := by
  intro e failed
  unfold singleKey at failed
  split at failed
  · exact ⟨_, (Except.error.inj failed).symm⟩
  · rename_i key shape
    have present : (entity.property? key).isSome :=
      isSome_property?_of_check passed (by simp [shape])
    obtain ⟨property, found⟩ := Option.isSome_iff_exists.mp present
    simp [found] at failed
  · exact ⟨_, (Except.error.inj failed).symm⟩

end Entity

end FullTextQuery
