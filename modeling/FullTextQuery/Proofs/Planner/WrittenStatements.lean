import FullTextQuery.Proofs.Planner.ColumnNames
import FullTextQuery.Proofs.Planner.PlainStatement
import FullTextQuery.Proofs.Query.ParsedNames

namespace FullTextQuery

/-!
# Statements that are made of identifiers

Over a model that was built, the names in a statement come down to identifiers, and so do the
names of its parameters if the query is read from a text.  Without a NUL in the text there
is none in the statement, and the text of the statement is then read as the statement.
-/

namespace Sql

/-- A text is free of NUL if no character of it is one. -/
theorem nulFree_iff
    {text : String} :
    nulFree text = true ↔ '\x00' ∉ text.toList := by
  simp [nulFree]

/-- Two texts without a NUL have none together. -/
theorem nulFree_append
    {text other : String}
    (textFree : nulFree text = true)
    (otherFree : nulFree other = true) :
    nulFree (text ++ other) = true := by
  rw [nulFree_iff] at textFree otherFree ⊢
  rw [String.toList_append, List.mem_append]
  exact not_or.mpr ⟨textFree, otherFree⟩

/-- The characters of an identifier can continue one. -/
theorem isNameChar_of_isIdentifier
    {name : String}
    (identifier : isIdentifier name = true) :
    ∀ c ∈ name.toList, Query.isNameChar c = true := by
  obtain ⟨first, others, shape, start, all⟩ := Query.isIdentifier_iff.mp identifier
  rw [shape, List.forall_mem_cons]
  exact ⟨Query.isNameChar_of_isNameStart start, all⟩

/-- An identifier has no NUL. -/
theorem nulFree_of_isIdentifier
    {name : String}
    (identifier : isIdentifier name = true) :
    nulFree name = true := by
  rw [nulFree_iff]
  intro isThere
  exact absurd (isNameChar_of_isIdentifier identifier _ isThere) (by decide)

/-- An identifier can be the name of a parameter. -/
theorem isParameterName_of_isIdentifier
    {name : String}
    (identifier : isIdentifier name = true) :
    isParameterName name = true := by
  obtain ⟨first, others, shape, _⟩ := Query.isIdentifier_iff.mp identifier
  rw [isParameterName, Bool.and_eq_true, List.all_eq_true]
  refine ⟨by simp [shape], fun c isThere => ?_⟩
  have isChar := isNameChar_of_isIdentifier identifier c isThere
  simp only [Query.isNameChar, Char.isAlphanum, Bool.or_eq_true, beq_iff_eq] at isChar
  simp only [isWordChar, isWordStart, Decimal.isDigit_eq, Bool.or_eq_true, beq_iff_eq]
  tauto

/-- The text of an integer has no NUL. -/
theorem nulFree_ofInt
    (n : Int) :
    nulFree (Decimal.ofInt n) = true := by
  have noDigit : '\x00' ∉ Decimal.digits n.natAbs := fun isThere =>
    absurd (Decimal.isDigit_of_mem_digits isThere) (by decide)
  rw [nulFree_iff, Decimal.ofInt, String.toList_ofList]
  split
  · exact fun isThere => (List.mem_cons.mp isThere).elim (by decide) noDigit
  · exact noDigit

end Sql

/-- The names that an entity puts into a statement are identifiers if it passes its check. -/
theorem Entity.isIdentifier_of_check
    {entity : Entity}
    (passed : entity.check = .ok ()) :
    isIdentifier entity.table = true ∧ ∀ property ∈ entity.properties,
      isIdentifier property.name = true ∧ isIdentifier property.column = true := by
  obtain ⟨-, table, properties, -⟩ := check_eq_ok.mp passed
  refine ⟨table, fun property isProperty => ?_⟩
  obtain ⟨name, column, -⟩ := checkProperty_eq_ok.mp (properties property isProperty)
  exact ⟨name, column⟩

namespace Expr

/-- The parts of an expression are among everything that it is made of. -/
theorem nodes_subset_subexpressions
    (e : Expr) :
    e.nodes ⊆ e.subexpressions := by
  have both : ∀ {first second firstAll secondAll : List Expr}, first ⊆ firstAll →
      second ⊆ secondAll → first ++ second ⊆ firstAll ++ secondAll :=
    fun firstSubset secondSubset part isPart => List.mem_append.mpr
      ((List.mem_append.mp isPart).imp (firstSubset ·) (secondSubset ·))
  induction e with
  | item name => exact List.Subset.refl _
  | member source property => exact List.Subset.refl _
  | literal value => exact List.Subset.refl _
  | parameter name => exact List.Subset.refl _
  | compare left op right leftSubset rightSubset =>
      exact List.cons_subset_cons _ (both leftSubset rightSubset)
  | and left right leftSubset rightSubset =>
      exact List.cons_subset_cons _ (both leftSubset rightSubset)
  | or left right leftSubset rightSubset =>
      exact List.cons_subset_cons _ (both leftSubset rightSubset)
  | not operand operandSubset => exact List.cons_subset_cons _ operandSubset
  | call function args argSubset =>
      rw [nodes_call, subexpressions_call]
      refine List.cons_subset_cons _ fun part isPart => ?_
      split at isPart
      · exact absurd isPart List.not_mem_nil
      · obtain ⟨arg, isArg, isNode⟩ := List.mem_flatMap.mp isPart
        exact mem_subexpressionsOfAll.mpr ⟨arg, isArg, argSubset arg isArg isNode⟩

/-- A column is named for one of the projected expressions. -/
theorem exists_of_mem_columnNames
    {names : List String}
    {es : List Expr}
    {name : String}
    (isName : name ∈ columnNames names es) :
    ∃ e ∈ es, ∃ earlier, name = e.columnName earlier := by
  induction es generalizing names with
  | nil => exact absurd isName List.not_mem_nil
  | cons e es inductionHypothesis =>
      rcases List.mem_cons.mp isName with rfl | isLater
      · exact ⟨e, List.mem_cons_self, names, rfl⟩
      · obtain ⟨other, isOther, earlier, rfl⟩ := inductionHypothesis isLater
        exact ⟨other, List.mem_cons_of_mem _ isOther, earlier, rfl⟩

end Expr

namespace Query

/-- Whether the names of a query are identifiers, and its texts have no NUL. -/
structure Writable
    (query : Query) :
    Prop where
  items : ∀ source ∈ query.sources, isIdentifier source.item = true
  parameters : ∀ name, .parameter name ∈ query.nodes → isIdentifier name = true
  projected : ∀ item property, .member item property ∈ query.projection →
    isIdentifier item = true ∧ isIdentifier property = true
  texts : ∀ s, .literal (.text s) ∈ query.nodes → Sql.nulFree s = true

/-- A query that is read from a text without NUL is writable. -/
theorem writable_of_parse
    {text : String}
    {query : Query}
    (parsed : Query.parse text = .ok query)
    (noNul : '\x00' ∉ text.toList) :
    query.Writable := by
  have written := written_of_parse parsed
  have parts : ∀ node ∈ query.nodes, node.HasNames ∧ node.TextWithin (· ∈ text.toList) := by
    intro node isNode
    obtain ⟨e, isExpression, isPart⟩ := List.mem_flatMap.mp isNode
    exact written.expressions e isExpression node (e.nodes_subset_subexpressions isPart)
  exact {
    items := fun source isSource => (written.sources source isSource).1.identifier
    parameters := fun name isNode => (parts _ isNode).1.identifier
    projected := by
      intro item property isProjected
      have isExpression : .member item property ∈ query.expressions := by
        simp [expressions, isProjected]
      obtain ⟨proper, properProperty⟩ := (written.expressions _ isExpression _
        (Expr.nodes_subset_subexpressions _ (Expr.mem_nodes_self _))).1
      exact ⟨proper.identifier, properProperty.identifier⟩
    texts := fun s isNode => Sql.nulFree_iff.mpr fun isThere =>
      noNul ((parts _ isNode).2 s rfl _ isThere) }

/-- The name of a projected expression's column has no NUL. -/
theorem Writable.nulFree_columnName
    {query : Query}
    (writable : query.Writable)
    {e : Expr}
    (isProjected : e ∈ query.projection)
    (earlier : List String) :
    Sql.nulFree (e.columnName earlier) = true := by
  have forPlace : ∀ place : Nat,
      Sql.nulFree ("column" ++ Decimal.ofInt (place + 1)) = true :=
    fun place => Sql.nulFree_append (by decide) (Sql.nulFree_ofInt _)
  cases e with
  | member source property =>
      obtain ⟨sourceIs, propertyIs⟩ := writable.projected source property isProjected
      have sourceFree := Sql.nulFree_of_isIdentifier sourceIs
      have propertyFree := Sql.nulFree_of_isIdentifier propertyIs
      rw [Expr.columnName]
      split
      · exact Sql.nulFree_append (Sql.nulFree_append sourceFree (by decide)) propertyFree
      · exact propertyFree
  | item name => exact forPlace _
  | literal value => exact forPlace _
  | parameter name => exact forPlace _
  | compare left op right => exact forPlace _
  | and left right => exact forPlace _
  | or left right => exact forPlace _
  | not operand => exact forPlace _
  | call function args => exact forPlace _

end Query

namespace Planner

variable {model : Model} {query : Query} {draft : Draft}

/-- The table of a known entity has no NUL in its name, nor have the columns of its properties. -/
theorem nulFree_of_entity?
    (built : model.Built)
    {name : String}
    {entity : Entity}
    (known : model.entity? name = some entity) :
    Sql.nulFree entity.table = true ∧ ∀ property ∈ entity.properties,
      Sql.nulFree property.name = true ∧ Sql.nulFree property.column = true := by
  obtain ⟨table, properties⟩ := Entity.isIdentifier_of_check (built.checked known).1
  exact ⟨Sql.nulFree_of_isIdentifier table, fun property isProperty =>
    (properties property isProperty).imp Sql.nulFree_of_isIdentifier Sql.nulFree_of_isIdentifier⟩

section NulFree

variable (built : model.Built) (writable : query.Writable)

include built writable

/-- A column of an item has no NUL in its names. -/
theorem nulFree_column
    {item : String}
    {entity : Entity}
    {property : Property}
    (ranges : query.entityOf? model item = some entity)
    (declared : property ∈ entity.properties) :
    (RelExpr.column item property.column).NulFree := by
  obtain ⟨source, isSource, rfl, known⟩ := Query.exists_source_of_entityOf? ranges
  have itemFree := Sql.nulFree_of_isIdentifier (writable.items source isSource)
  have columnFree := ((nulFree_of_entity? built known).2 property declared).2
  simp [RelExpr.NulFree, RelExpr.nulFreePart, itemFree, columnFree]

/-- The image of an expression has no NUL if the texts in the expression have none. -/
theorem nulFree_of_image?
    {e : Expr}
    {image : RelExpr}
    (imaged : e.image? model query = some image)
    (texts : ∀ s, .literal (.text s) ∈ e.nodes → Sql.nulFree s = true) :
    image.NulFree := by
  refine Expr.image?_induction (motive := fun e image =>
      (∀ s, .literal (.text s) ∈ e.nodes → Sql.nulFree s = true) → image.NulFree)
    ?member ?literal ?parameter ?compare ?and ?or ?not ?search ?call imaged texts
  case member =>
    intro source property entity declared ranges has _
    exact nulFree_column built writable ranges (List.mem_of_find?_eq_some has)
  case literal =>
    intro value texts
    cases value with
    | text s => exact RelExpr.every_literal.mpr (texts s (Expr.mem_nodes_self _))
    | null => exact RelExpr.every_literal.mpr rfl
    | integer n => exact RelExpr.every_literal.mpr rfl
    | real x => exact RelExpr.every_literal.mpr rfl
  case parameter =>
    intro name _
    exact RelExpr.every_parameter.mpr rfl
  case compare =>
    intro left op right l r leftFree rightFree texts
    simp only [Expr.nodes_compare, List.mem_cons, List.mem_append, reduceCtorEq, false_or] at texts
    exact RelExpr.every_compare.mpr
      ⟨rfl, leftFree fun s isNode => texts s (.inl isNode),
        rightFree fun s isNode => texts s (.inr isNode)⟩
  case and =>
    intro left right l r leftFree rightFree texts
    simp only [Expr.nodes_and, List.mem_cons, List.mem_append, reduceCtorEq, false_or] at texts
    exact RelExpr.every_and.mpr
      ⟨rfl, leftFree fun s isNode => texts s (.inl isNode),
        rightFree fun s isNode => texts s (.inr isNode)⟩
  case or =>
    intro left right l r leftFree rightFree texts
    simp only [Expr.nodes_or, List.mem_cons, List.mem_append, reduceCtorEq, false_or] at texts
    exact RelExpr.every_or.mpr
      ⟨rfl, leftFree fun s isNode => texts s (.inl isNode),
        rightFree fun s isNode => texts s (.inr isNode)⟩
  case not =>
    intro operand o operandFree texts
    simp only [Expr.nodes_not, List.mem_cons, reduceCtorEq, false_or] at texts
    exact RelExpr.every_not.mpr ⟨rfl, operandFree texts⟩
  case search =>
    intro e searched test _ isTest _
    simp only [Expr.keyTest?, Option.bind_eq_bind, Option.bind_eq_some_iff, Option.pure_def,
      Option.some.injEq] at isTest
    obtain ⟨entity, ranges, ⟨key, index⟩, searchable, rfl⟩ := isTest
    obtain ⟨_, has, _⟩ := Entity.searchable?_eq_some.mp searchable
    exact RelExpr.every_membership.mpr
      ⟨rfl, nulFree_column built writable ranges (List.mem_of_find?_eq_some has)⟩
  case call =>
    intro function args images notSearch _ argsFree texts
    simp only [Expr.nodes_call, notSearch, Option.isSome_none, Bool.false_eq_true, ↓reduceIte,
      List.mem_cons, reduceCtorEq, false_or, List.mem_flatMap] at texts
    refine RelExpr.every_function.mpr ⟨rfl, fun image isImage => ?_⟩
    obtain ⟨arg, isArg, argFree⟩ := List.exists_of_forall₂_right argsFree isImage
    exact argFree fun s isNode => texts s ⟨arg, isArg, isNode⟩

end NulFree

/-- Every expression of the statement is the image of one whose literals are in the query. -/
theorem Drafted.exists_preimage_with_literals
    (drafted : Drafted model query draft) :
    ∀ image ∈ draft.statement.expressions, ∃ e : Expr, e.image? model query = some image ∧
      ∀ value, .literal value ∈ e.nodes → .literal value ∈ query.nodes := by
  have ofClause : ∀ e ∈ query.clauses, ∀ value, .literal value ∈ e.nodes →
      .literal value ∈ query.nodes :=
    fun e isClause value isNode => Query.mem_nodes_of_clause isClause isNode (by simp)
  simp only [Query.clauses, List.forall_mem_append, List.forall_mem_map] at ofClause
  obtain ⟨⟨⟨ofFilter, ofJoin⟩, ofProjected⟩, ofKey⟩ := ofClause
  simp only [Statement.expressions, List.forall_mem_append, List.forall_mem_map]
  refine ⟨⟨⟨?projection, ?joins⟩, ?predicate⟩, ?ordering⟩
  case projection =>
    intro output isOutput
    obtain ⟨e, isProjected, imaged⟩ :=
      List.exists_of_forall₂_right (drafted.projection.outputs drafted.known) isOutput
    refine ⟨e, imaged, ?_⟩
    unfold Query.projected at isProjected
    split at isProjected
    · split at isProjected
      · obtain ⟨property, _, rfl⟩ := List.mem_map.mp isProjected
        intro value isNode
        cases List.mem_singleton.mp isNode
      · exact absurd isProjected List.not_mem_nil
    · exact ofProjected e isProjected
  case joins =>
    intro joined isJoined
    obtain ⟨join, isJoin, joinDrafted⟩ := List.exists_of_forall₂_right drafted.joins isJoined
    exact ⟨_, joinDrafted.on, ofJoin join isJoin⟩
  case predicate =>
    have related := drafted.filterImages
    intro image isPredicate
    rw [Option.mem_toList, drafted.predicate] at isPredicate
    generalize query.filters = filters, draft.filters.map (·.lowered) = images
      at related isPredicate ofFilter
    cases related with
    | nil => simp [conjunction?] at isPredicate
    | cons imaged othersImaged =>
        obtain rfl := Option.some.inj isPredicate
        refine ⟨_, image?_foldl_and imaged othersImaged, fun value isNode => ?_⟩
        obtain ⟨filter, isFilter, inFilter⟩ := exists_of_literal_mem_foldl_and isNode
        exact ofFilter filter isFilter value inFilter
  case ordering =>
    intro term isTerm
    obtain ⟨key, isKey, keyDrafted⟩ := List.exists_of_forall₂_right drafted.ordering isTerm
    exact ⟨key.expr, keyDrafted.expr, ofKey key isKey⟩

section Writable

variable (drafted : Drafted model query draft) (writable : query.Writable)

include drafted writable

/-- The parameters of a writable query have names that can stand in a text. -/
theorem Drafted.named :
    ∀ use ∈ draft.statement.uses, Sql.isParameterName use.name = true := by
  rintro ⟨name, supplier⟩ isUse
  obtain ⟨node, isNode, isUsed⟩ := drafted.mem_uses.mp isUse
  cases supplier with
  | caller =>
      rw [Expr.use?_eq_some_caller] at isUsed
      subst isUsed
      exact Sql.isParameterName_of_isIdentifier (writable.parameters name isNode)
  | search =>
      obtain ⟨rfl, _⟩ := Expr.use?_eq_some_search.mp isUsed
      decide +kernel

/-- The names of the result columns of a writable query have no NUL. -/
theorem Drafted.nulFree_columns
    (built : model.Built) :
    ∀ output ∈ draft.statement.projection, Sql.nulFree output.name = true := by
  intro output isOutput
  have isName : output.name ∈ draft.columns.map (·.name) := by
    rw [← drafted.projection.names]
    exact List.mem_map_of_mem isOutput
  by_cases everything : query.projection = []
  · obtain ⟨lowered, projection, _, isColumns⟩ := drafted.projection
    rw [ProjectionLowered, everything] at projection
    obtain ⟨root, inScope, rfl⟩ := projection
    rw [Scope.get?_declared drafted.known, Option.map_eq_some_iff] at inScope
    obtain ⟨entity, ranges, rfl⟩ := inScope
    obtain ⟨source, _, _, known⟩ := Query.exists_source_of_entityOf? ranges
    rw [isColumns, everyProperty, List.map_map, List.map_map] at isName
    obtain ⟨property, isProperty, isName⟩ := List.mem_map.mp isName
    rw [← isName]
    exact ((nulFree_of_entity? built known).2 property isProperty).1
  · rw [names_of_projectionDrafted everything drafted.projection] at isName
    obtain ⟨e, isProjected, earlier, isName⟩ := Expr.exists_of_mem_columnNames isName
    rw [isName]
    exact writable.nulFree_columnName isProjected earlier

/-- The statement of a writable query has no NUL. -/
theorem Drafted.nulFree
    (built : model.Built) :
    draft.statement.NulFree := by
  have exprs : ∀ image ∈ draft.statement.expressions, image.NulFree := by
    intro image isPart
    obtain ⟨e, imaged, literals⟩ := drafted.exists_preimage_with_literals image isPart
    exact nulFree_of_image? built writable imaged fun s isNode =>
      writable.texts s (literals _ isNode)
  have table : ∀ {source : Source} {entity : Entity}, source ∈ query.sources →
      model.entity? source.entity = some entity →
      Statement.TableNulFree ⟨entity.table, source.item⟩ := fun isSource known =>
    ⟨(nulFree_of_entity? built known).1, Sql.nulFree_of_isIdentifier (writable.items _ isSource)⟩
  simp only [Statement.expressions, List.forall_mem_append, List.forall_mem_map,
    Option.mem_toList] at exprs
  obtain ⟨⟨⟨columns, joins⟩, predicate⟩, ordering⟩ := exprs
  refine ⟨?_, ?_, ?_, predicate, ordering⟩
  · exact fun output isOutput =>
      ⟨columns output isOutput, drafted.nulFree_columns writable built output isOutput⟩
  · obtain ⟨root, known, isSource⟩ := drafted.source
    rw [isSource]
    exact table (by simp [Query.sources]) known
  · intro joined isJoined
    obtain ⟨join, isJoin, joinDrafted⟩ := List.exists_of_forall₂_right drafted.joins isJoined
    obtain ⟨entity, known, isTable⟩ := joinDrafted.table
    refine ⟨?_, joins joined isJoined⟩
    rw [isTable]
    exact table (by simpa [Query.sources] using .inr ⟨join, isJoin, rfl⟩) known

end Writable

end Planner

end FullTextQuery
