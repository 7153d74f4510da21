import FullTextQuery.Proofs.Meaning.Scalars

namespace FullTextQuery

/-!
# The names of a query are found

Where the tables have the columns that the model maps, and no two items go by names
that differ in the case of letters only, the image of every expression whose reals are
finite is read as a term in which every name is found.
-/

namespace Store.Table

/-- Whether a table has a column, and no other of that name, for each property of an entity. -/
structure Maps
    (table : Table)
    (entity : Entity) :
    Prop where
  noDuplicate : duplicateColumn? table.columns = none
  columns : ∀ property ∈ entity.properties,
    ∃ column ∈ table.columns, sameName column.name property.column = true

instance
    (table : Table)
    (entity : Entity) :
    Decidable (table.Maps entity) :=
  decidable_of_iff (duplicateColumn? table.columns = none ∧ ∀ property ∈ entity.properties,
      ∃ column ∈ table.columns, sameName column.name property.column = true)
    ⟨fun ⟨noDuplicate, columns⟩ => ⟨noDuplicate, columns⟩, fun maps => ⟨maps.1, maps.2⟩⟩

end Store.Table

/-- A known function takes a single argument and is a function of the store. -/
theorem exists_ofName?_of_isKnownFunction
    {name : String}
    {arity : Nat}
    (known : isKnownFunction name arity = true) :
    arity = 1 ∧ ∃ function, Store.ScalarFunction.ofName? name = some function := by
  have isListed : (lowerName name, arity) ∈ knownFunctions := by
    simpa [isKnownFunction] using known
  have listed : ∀ entry ∈ knownFunctions, entry.2 = 1 ∧
      (Store.ScalarFunction.named.lookup entry.1).isSome := by
    decide
  obtain ⟨single, isSome⟩ := listed _ isListed
  exact ⟨single, Option.isSome_iff_exists.mp isSome⟩

namespace Interpretation

open Store

/-- Whether every item has a table with the columns of its entity. -/
def Mapped
    (i : Interpretation) :
    Prop :=
  ∀ source ∈ i.query.sources, ∀ entity ∈ i.model.entity? source.entity,
    ∃ table ∈ i.store.table? entity.table, table.Maps entity

/-- Whether the names of the items differ in more than the case of letters. -/
def ItemsDiffer
    (i : Interpretation) :
    Prop :=
  i.query.sources.Pairwise fun a b => sameName a.item b.item = false

instance
    (i : Interpretation) :
    Decidable i.Mapped :=
  inferInstanceAs (Decidable (∀ source ∈ i.query.sources,
    ∀ entity ∈ i.model.entity? source.entity, ∃ table ∈ i.store.table? entity.table,
      table.Maps entity))

instance
    (i : Interpretation) :
    Decidable i.ItemsDiffer :=
  inferInstanceAs (Decidable (i.query.sources.Pairwise fun a b =>
    sameName a.item b.item = false))

variable {i : Interpretation} {bindings : Bindings}

/-- The table of an item goes by its name. -/
theorem tableAlias_of_bound?
    {source : Source}
    {bound : BoundTable}
    (isBound : i.bound? source = some bound) :
    bound.tableAlias = source.item := by
  simp only [bound?, Option.bind_eq_bind, Option.bind_eq_some_iff, Option.pure_def,
    Option.some.injEq] at isBound
  obtain ⟨_, _, _, _, rfl⟩ := isBound
  rfl

/-- Where the tables have the columns that the model maps, every item has a table. -/
theorem Mapped.complete
    (mapped : i.Mapped)
    (known : ∀ source ∈ i.query.sources, (i.model.entity? source.entity).isSome) :
    i.Complete := by
  have someTable : ∀ source ∈ i.query.sources, ∃ bound, i.bound? source = some bound := by
    intro source isSource
    obtain ⟨entity, isEntity⟩ := Option.isSome_iff_exists.mp (known source isSource)
    obtain ⟨table, isTable, _⟩ := mapped source isSource entity isEntity
    exact ⟨⟨source.item, table⟩, by simp [bound?, isEntity, Option.mem_def.mp isTable]⟩
  obtain ⟨bounds, areBound⟩ := List.exists_forall₂_iff.mpr someTable
  rw [Complete, tables, List.filterMap_eq_of_forall₂ areBound]
  exact areBound

/-- Tables of different items go by different names. -/
theorem pairwise_tables
    (complete : i.Complete)
    (differ : i.ItemsDiffer) :
    i.tables.Pairwise fun a b => sameName a.tableAlias b.tableAlias = false := by
  have sameNames : i.tables.map (·.tableAlias) = i.query.sources.map (·.item) := by
    rw [← List.forall₂_eq_eq_eq, List.forall₂_map_left_iff, List.forall₂_map_right_iff]
    exact (complete.imp fun _ _ isBound => tableAlias_of_bound? isBound).flip
  have apart : (i.query.sources.map (·.item)).Pairwise fun a b => sameName a b = false :=
    List.pairwise_map.mpr differ
  rw [← sameNames, List.pairwise_map] at apart
  exact apart

section Resolving

variable (mapped : i.Mapped) (complete : i.Complete) (differ : i.ItemsDiffer)

include mapped complete differ

/-- The column of a property of an item is found. -/
theorem resolves_column
    {item : String}
    {entity : Entity}
    {property : Property}
    (ranges : i.query.entityOf? i.model item = some entity)
    (declared : property ∈ entity.properties) :
    Resolves i.tables bindings (.column item property.column) := by
  obtain ⟨source, isSource, table, place, known, isTable, isPlace⟩ := complete.exists_table ranges
  obtain ⟨other, isOther, maps⟩ := mapped source isSource entity known
  obtain rfl := Option.some.inj (isTable.symm.trans isOther)
  have isBound : ⟨item, table⟩ ∈ i.tables :=
    List.fst_mem_of_mem_zipIdx (List.mem_of_find?_eq_some isPlace)
  obtain ⟨ref, found⟩ := exists_findColumn_eq_ok (pairwise_tables complete differ) isBound
    maps.noDuplicate (maps.columns property declared)
  exact ⟨.column ref, ofTerm_column_eq_ok.mpr ⟨ref, found, rfl⟩⟩

/-- The core of an image is read as a term in which the names are found. -/
theorem exists_core?_resolves
    [NumeralReading]
    {e : Expr}
    {image : RelExpr}
    (imaged : e.image? i.model i.query = some image)
    (finite : ∀ x, .literal (.real x) ∈ e.nodes → x.code < Binary64.infinityCode) :
    ∃ core, image.core? = some core ∧ Resolves i.tables bindings core := by
  refine Expr.image?_induction (motive := fun e image =>
      (∀ x, .literal (.real x) ∈ e.nodes → x.code < Binary64.infinityCode) →
        ∃ core, image.core? = some core ∧ Resolves i.tables bindings core)
    ?member ?literal ?parameter ?compare ?and ?or ?not ?search ?call imaged finite
  case member =>
    intro source property entity declared ranges has _
    exact ⟨_, rfl, resolves_column mapped complete differ ranges (List.mem_of_find?_eq_some has)⟩
  case literal =>
    intro value finite
    have isFinite : (RelExpr.literal value).Finite := by
      rw [RelExpr.Finite, RelExpr.every_literal]
      cases value with
      | real x => exact decide_eq_true (finite x (Expr.mem_nodes_self _))
      | null => rfl
      | integer n => rfl
      | text s => rfl
    obtain ⟨read, isCore, _⟩ := RelExpr.exists_core?_literal isFinite
    exact ⟨.literal read, isCore, _, rfl⟩
  case parameter =>
    intro name _
    exact ⟨_, rfl, _, rfl⟩
  case compare =>
    intro left op right l r leftResolves rightResolves finite
    simp only [Expr.nodes_compare, List.mem_cons, List.mem_append, reduceCtorEq, false_or] at finite
    obtain ⟨leftCore, isLeft, leftFound⟩ := leftResolves fun x isNode => finite x (.inl isNode)
    obtain ⟨rightCore, isRight, rightFound⟩ := rightResolves fun x isNode => finite x (.inr isNode)
    refine ⟨_, by rw [RelExpr.core?, isLeft, isRight]; rfl, ?_⟩
    exact ((leftFound.withTests _).compare _ rightFound).withTests _
  case and =>
    intro left right l r leftResolves rightResolves finite
    simp only [Expr.nodes_and, List.mem_cons, List.mem_append, reduceCtorEq, false_or] at finite
    obtain ⟨leftCore, isLeft, leftFound⟩ := leftResolves fun x isNode => finite x (.inl isNode)
    obtain ⟨rightCore, isRight, rightFound⟩ := rightResolves fun x isNode => finite x (.inr isNode)
    refine ⟨_, by rw [RelExpr.core?, isLeft, isRight]; rfl, ?_⟩
    exact (leftFound.withTests _).and (rightFound.withTests _)
  case or =>
    intro left right l r leftResolves rightResolves finite
    simp only [Expr.nodes_or, List.mem_cons, List.mem_append, reduceCtorEq, false_or] at finite
    obtain ⟨leftCore, isLeft, leftFound⟩ := leftResolves fun x isNode => finite x (.inl isNode)
    obtain ⟨rightCore, isRight, rightFound⟩ := rightResolves fun x isNode => finite x (.inr isNode)
    refine ⟨_, by rw [RelExpr.core?, isLeft, isRight]; rfl, ?_⟩
    exact (leftFound.withTests _).or (rightFound.withTests _)
  case not =>
    intro operand o operandResolves finite
    simp only [Expr.nodes_not, List.mem_cons, reduceCtorEq, false_or] at finite
    obtain ⟨core, isCore, found⟩ := operandResolves finite
    exact ⟨_, by rw [RelExpr.core?, isCore]; rfl, (found.withTests _).not⟩
  case search =>
    intro e searched test _ isTest _
    simp only [Expr.keyTest?, Option.bind_eq_bind, Option.bind_eq_some_iff, Option.pure_def,
      Option.some.injEq] at isTest
    obtain ⟨entity, ranges, ⟨key, index⟩, searchable, rfl⟩ := isTest
    obtain ⟨_, has, _⟩ := Entity.searchable?_eq_some.mp searchable
    exact ⟨_, rfl, resolves_column mapped complete differ ranges (List.mem_of_find?_eq_some has)⟩
  case call =>
    intro function args images notSearch known argsResolve finite
    obtain ⟨single, scalarFunction, isFunction⟩ := exists_ofName?_of_isKnownFunction known
    obtain ⟨arg, rfl⟩ := List.length_eq_one_iff.mp single
    obtain ⟨image, others, argResolves, noOthers, rfl⟩ := List.forall₂_cons_left_iff.mp argsResolve
    obtain rfl := List.forall₂_nil_left_iff.mp noOthers
    simp only [Expr.nodes_call, notSearch, Option.isSome_none, Bool.false_eq_true, ↓reduceIte,
      List.flatMap_cons, List.flatMap_nil, List.append_nil, List.mem_cons, reduceCtorEq, false_or]
      at finite
    obtain ⟨core, isCore, found⟩ := argResolves finite
    refine ⟨_, by rw [RelExpr.core?, RelExpr.groupedAll?, isCore]; rfl, ?_⟩
    exact .call ((ofName?_upperName function).trans isFunction) (found.withTests _)

/-- An image is read as a term in which the names are found. -/
theorem exists_grouped?_resolves
    [NumeralReading]
    {e : Expr}
    {image : RelExpr}
    (imaged : e.image? i.model i.query = some image)
    (finite : ∀ x, .literal (.real x) ∈ e.nodes → x.code < Binary64.infinityCode) :
    ∃ term, image.grouped? = some term ∧ Resolves i.tables bindings term := by
  obtain ⟨core, isCore, found⟩ := exists_core?_resolves mapped complete differ imaged finite
  exact ⟨_, by rw [RelExpr.grouped?, isCore]; rfl, found.withTests _⟩

end Resolving

end Interpretation

end FullTextQuery
