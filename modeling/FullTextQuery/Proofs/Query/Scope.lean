import FullTextQuery.Query.Scope
import FullTextQuery.Proofs.Model.Built

namespace FullTextQuery

/-!
# What is in scope

The scope of a query exists exactly if its entities are known and its item
variables are distinct, and an item variable then stands for the entity of the
one source that declares it.
-/

namespace Query

/-- The entity that an item variable of a query ranges over. -/
def entityOf?
    (model : Model)
    (query : Query)
    (item : String) :
    Option Entity :=
  (query.sources.find? (·.item == item)).bind fun source => model.entity? source.entity

/-- An item variable that ranges over an entity is declared by a source of that entity. -/
theorem exists_source_of_entityOf?
    {model : Model}
    {query : Query}
    {item : String}
    {entity : Entity}
    (ranges : query.entityOf? model item = some entity) :
    ∃ source ∈ query.sources,
      source.item = item ∧ model.entity? source.entity = some entity := by
  obtain ⟨source, found, known⟩ := Option.bind_eq_some_iff.mp ranges
  exact ⟨source, List.mem_of_find?_eq_some found,
    by simpa using List.find?_some found, known⟩

end Query

namespace Scope

/-- The entry of a source whose entity is known. -/
def declaration?
    (model : Model)
    (source : Source) :
    Option (String × ScopeItem) :=
  (model.entity? source.entity).map fun entity => (source.item, ⟨source.item, entity⟩)

/-- A source comes into scope exactly if its entity is known and its item is new. -/
theorem add_eq_ok
    {scope : Scope}
    {source : Source}
    {after : Scope} :
    scope.add source = .ok after ↔
      ∃ entity, scope.model.entity? source.entity = some entity ∧
        source.item ∉ scope.items.names ∧
        after = { scope with
          items := ⟨scope.items.entries ++ [(source.item, ⟨source.item, entity⟩)]⟩ } := by
  unfold add Model.entity
  cases known : scope.model.entity? source.entity with
  | none =>
      simp
  | some entity =>
      by_cases present : source.item ∈ scope.items.names
      · simp [NameMap.contains_iff_mem_names.mpr present, present]
      · have contained : scope.items.contains source.item = false := by
          rw [← Bool.not_eq_true, NameMap.contains_iff_mem_names]
          exact present
        have inserted :
            scope.items.insert source.item ⟨source.item, entity⟩ =
              ⟨scope.items.entries ++ [(source.item, ⟨source.item, entity⟩)]⟩ := by
          rw [← NameMap.entries_insert_of_not_mem present]
        simp [contained, present, inserted, eq_comm (a := after)]

/-- Sources come into scope one after another, each at the end. -/
theorem foldlM_add_eq_ok
    {sources : List Source}
    {scope after : Scope} :
    sources.foldlM add scope = .ok after ↔
      (∀ source ∈ sources, (scope.model.entity? source.entity).isSome) ∧
        (∀ source ∈ sources, source.item ∉ scope.items.names) ∧
        (sources.map (·.item)).Nodup ∧
        after = { scope with
          items := ⟨scope.items.entries ++ sources.filterMap (declaration? scope.model)⟩ } := by
  induction sources generalizing scope with
  | nil =>
      simp [eq_comm (a := scope)]
  | cons source rest inductionHypothesis =>
      simp only [List.foldlM_cons, Except.bind_eq_ok, add_eq_ok]
      constructor
      · rintro ⟨_, ⟨entity, known, fresh, rfl⟩, restAdded⟩
        obtain ⟨restKnown, restFresh, restDistinct, rfl⟩ := inductionHypothesis.mp restAdded
        refine ⟨?_, ?_, ?_, ?_⟩
        · simpa [known] using restKnown
        · simp only [NameMap.names, List.map_append, List.map_cons, List.map_nil,
            List.mem_append, List.mem_singleton, not_or] at restFresh
          exact List.forall_mem_cons.mpr ⟨fresh, fun other member => (restFresh other member).1⟩
        · simp only [NameMap.names, List.map_append, List.map_cons, List.map_nil,
            List.mem_append, List.mem_singleton, not_or] at restFresh
          refine List.nodup_cons.mpr ⟨?_, restDistinct⟩
          intro member
          obtain ⟨other, otherMember, same⟩ := List.mem_map.mp member
          exact (restFresh other otherMember).2 same
        · simp [declaration?, known]
      · rintro ⟨known, fresh, distinct, rfl⟩
        obtain ⟨sourceKnown, restKnown⟩ := List.forall_mem_cons.mp known
        obtain ⟨sourceFresh, restFresh⟩ := List.forall_mem_cons.mp fresh
        obtain ⟨sourceDistinct, restDistinct⟩ := List.nodup_cons.mp distinct
        obtain ⟨entity, entityKnown⟩ := Option.isSome_iff_exists.mp sourceKnown
        refine ⟨_, ⟨entity, entityKnown, sourceFresh, rfl⟩, inductionHypothesis.mpr ?_⟩
        refine ⟨restKnown, ?_, restDistinct, ?_⟩
        · intro other member present
          simp only [NameMap.names, List.map_append, List.map_cons, List.map_nil,
            List.mem_append, List.mem_singleton] at present
          rcases present with earlier | same
          · exact restFresh other member earlier
          · exact sourceDistinct (List.mem_map.mpr ⟨other, member, same⟩)
        · simp [declaration?, entityKnown]

/-- The scope that a query has if it has one. -/
def declared
    (model : Model)
    (query : Query) :
    Scope where
  model := model
  items := ⟨query.sources.filterMap (declaration? model)⟩

/-- The scope of a query exists exactly if entities are known and item variables distinct. -/
theorem ofQuery_eq_ok
    {model : Model}
    {query : Query}
    {scope : Scope} :
    ofQuery model query = .ok scope ↔
      (∀ source ∈ query.sources, (model.entity? source.entity).isSome) ∧
        (query.sources.map (·.item)).Nodup ∧
        scope = declared model query := by
  rw [ofQuery, foldlM_add_eq_ok]
  simp [NameMap.empty, NameMap.names, declared]

/-- In a scope an item variable stands for the entity it ranges over, under its own name. -/
theorem get?_declared
    {model : Model}
    {query : Query}
    (known : ∀ source ∈ query.sources, (model.entity? source.entity).isSome)
    (item : String) :
    (declared model query).items.get? item =
      (query.entityOf? model item).map (⟨item, ·⟩) := by
  simp only [declared, NameMap.get?, Query.entityOf?]
  generalize query.sources = sources at known
  induction sources with
  | nil =>
      rfl
  | cons source rest inductionHypothesis =>
      obtain ⟨sourceKnown, restKnown⟩ := List.forall_mem_cons.mp known
      obtain ⟨entity, entityKnown⟩ := Option.isSome_iff_exists.mp sourceKnown
      by_cases isItem : source.item = item
      · simp [declaration?, entityKnown, isItem]
      · simp [declaration?, entityKnown, List.lookup_cons, beq_eq_false_iff_ne.mpr isItem,
          beq_eq_false_iff_ne.mpr (Ne.symm isItem), inductionHypothesis restKnown]

end Scope

end FullTextQuery
