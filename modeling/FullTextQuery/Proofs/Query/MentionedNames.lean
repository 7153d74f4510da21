import FullTextQuery.Proofs.Model.Built
import FullTextQuery.Proofs.Query.CanonicalQueries
import FullTextQuery.Proofs.Syntax.Lexemes

namespace FullTextQuery

/-!
# Names that queries can mention

The names of a model are identifiers, but a query takes sixteen words, in any case, for
its own.  An entity and its properties can be mentioned in a query exactly if none of
their names is such a word; the text of a query that tries to is refused as a whole.
-/

namespace Query

open Matcher Grammar

variable {rest : List Char} {name : String}

/-- Whether a name is one of the words that are no identifiers, in any case. -/
def IsReserved
    (name : String) :
    Prop :=
  name.toList.map Char.toLower ∈ reservedWords

instance (name : String) : Decidable (IsReserved name) :=
  inferInstanceAs (Decidable (_ ∈ _))

/-- A name of the grammar is an identifier that is no reserved word. -/
theorem isName_iff :
    IsName name ↔ isIdentifier name = true ∧ ¬IsReserved name :=
  ⟨fun proper => ⟨proper.identifier, proper.notReserved⟩, fun both => ⟨both.1, both.2⟩⟩

/-- A reserved word is not taken for a name. -/
theorem IsReserved.scanName?
    (reserved : IsReserved name)
    (stops : Text.Stops isNameChar rest) :
    Query.scanName? (name.toList ++ rest) = none := by
  refine scanName?_of_reserved (fun c member => ?_) reserved stops
  rw [← isNameChar_toLower]
  exact isNameChar_of_mem_reservedWords reserved _ (List.mem_map_of_mem member)

/-- An identifier, reserved or not, begins with no layout. -/
theorem opens_of_isIdentifier
    (identifier : isIdentifier name = true) :
    Opens (name.toList ++ rest) := by
  obtain ⟨c, others, shape, start, -⟩ := isIdentifier_iff.mp identifier
  rw [shape]
  exact .ofKind start rfl

/-- The query for the items of an entity of which a property is one. -/
def ofProperty
    (entity property : String) :
    Query where
  source := ⟨"x", entity⟩
  filters := [.compare (.member "x" property) .eq (.literal (.integer 1))]

/-- The text that asks for the items of an entity of which a property is one. -/
def propertyText
    (entity property : String) :
    String :=
  "from x in " ++ entity ++ " where x." ++ property ++ " = 1"

variable {entity property : String}

theorem toList_propertyText :
    (propertyText entity property).toList =
      "from ".toList ++ ((ofProperty entity property).source.text ++
        ' ' :: ("where".toList ++ ' ' :: ("x".toList ++
          '.' :: (property.toList ++ " = 1".toList)))) := by
  unfold propertyText
  simp [ofProperty, Source.text]

/-- The text that mentions a property spells the query that does. -/
theorem spells_ofProperty :
    (ofProperty entity property).Spells (propertyText entity property).toList := by
  have spells : (ofProperty entity property).Spells _ :=
    .intro .nil (.cons (.intro (.compare .member .integer)) .nil) .nil .nil
  have number : (Decimal.ofInt (1 : Int64).toInt).toList = ['1'] := by decide +kernel
  have noLimit : limitText (ofProperty entity property).limit? = [] := rfl
  rw [number, noLimit] at spells
  rw [toList_propertyText]
  refine (congrArg (ofProperty entity property).Spells ?_).mp spells
  simp only [Expr.operandText, Expr.isAtomic, if_pos, listClauseText, List.flatten_nil,
    List.flatten_cons, List.nil_append, List.append_nil, List.isEmpty_nil, List.append_assoc,
    List.cons_append]
  rfl

/-- The query that mentions a property has only identifiers as names. -/
theorem named_ofProperty
    (entityProper : IsName entity)
    (propertyProper : IsName property) :
    (ofProperty entity property).Named := by
  have item : IsName "x" := by decide
  constructor
  · simp [ofProperty, sources, item, entityProper]
  · simp [ofProperty, expressions, Expr.Named, Expr.HasNames, item, propertyProper]

/-- No source has an entity with a reserved name. -/
theorem matched?_fromClause_of_reserved
    (source : Source)
    (itemProper : IsName source.item)
    (identifier : isIdentifier source.entity = true)
    (reserved : IsReserved source.entity)
    (stops : Text.Stops isNameChar rest) :
    (fromClause ("from ".toList ++ (source.text ++ rest))).matched? = none := by
  have opens := itemProper.opens.append
    (' ' :: ("in".toList ++ ' ' :: (source.entity.toList ++ rest)))
  rw [Source.text_append, fromClause, matched?_rule]
  refine (matched?_spaced_keyword rfl opens _).trans ?_
  rw [matched?_spaced_name itemProper (opens_keyword "in" (by decide)),
    matched?_spaced_keyword rfl (opens_of_isIdentifier identifier), matched?_bind, Grammar.name,
    matched?_token, reserved.scanName? stops, Option.bind_none]

/-- No layout stands in front of the first clause. -/
theorem skipLayout_from
    (cs : List Char) :
    skipLayout .between ("from ".toList ++ cs) = "from ".toList ++ cs :=
  skipLayout_sign rfl (by decide) (by decide)

/-- A query over an entity with a reserved name is refused. -/
theorem matched?_query_of_reserved_entity
    (identifier : isIdentifier entity = true)
    (reserved : IsReserved entity) :
    (Grammar.query (propertyText entity property).toList).matched? = none := by
  rw [toList_propertyText, Grammar.query, matched?_rule, matched?_bind_of_some matched?_layout,
    skipLayout_from]
  refine matched?_bind_of_none ?_
  exact matched?_fromClause_of_reserved (ofProperty entity property).source
    (by decide : IsName "x") identifier reserved
    (Text.stops_cons.mpr (by decide : isNameChar ' ' = false))

/-- Whether a text goes on with a point and a reserved word. -/
def AtReserved
    (rest : List Char) :
    Prop :=
  ∃ (word : String) (more : List Char), rest = '.' :: (word.toList ++ more) ∧ IsReserved word ∧
    Text.Stops isNameChar more

namespace AtReserved

/-- There is no layout before a reserved word. -/
theorem skipLayout_eq
    (atReserved : AtReserved rest) :
    skipLayout .between rest = rest := by
  obtain ⟨_, _, rfl, -⟩ := atReserved
  exact skipLayout_sign rfl (by decide) (by decide)

/-- No keyword begins with a point. -/
theorem scanWord?_eq_none
    (atReserved : AtReserved rest)
    {word : List Char}
    (keyword : word ∈ reservedWords) :
    scanWord? word (skipLayout .between rest) = none := by
  have noPoint : ∀ word ∈ reservedWords, ∀ cs, scanWord? word ('.' :: cs) = none := by
    simp [reservedWords, scanWord?_of_head]
  rw [atReserved.skipLayout_eq]
  obtain ⟨_, _, rfl, -⟩ := atReserved
  exact noPoint word keyword _

/-- No clause begins with a point. -/
theorem absent
    {α : Type}
    (atReserved : AtReserved rest)
    {word : String}
    (keyword : word.toList ∈ reservedWords)
    (next : Unit → Matcher α) :
    ((do layout; (rule (spaced (Grammar.keyword word) >>= next)) : Matcher α) rest).matched? =
      none := by
  rw [matched?_bind_of_some matched?_layout, matched?_rule, matched?_spaced_bind,
    Grammar.keyword, matched?_token, atReserved.scanWord?_eq_none keyword, Option.bind_none]

end AtReserved

/-- In front of a point and a reserved word, a name is an item and no member. -/
theorem readsAt_item_of_atReserved
    (proper : IsName name) :
    ReadsAt operand AtReserved (.item name) name.toList := by
  rintro bound m - rest ⟨word, more, rfl, reserved, stops⟩ -
  have found : scanName? (name.toList ++ '.' :: (word.toList ++ more)) =
      some (name, '.' :: (word.toList ++ more)) :=
    proper.scanName? (Text.stops_cons.mpr rfl)
  have noOpen : Text.Stops (· == '(') (skipLayout .between ('.' :: (word.toList ++ more))) := by
    rw [skipLayout_sign rfl (by decide) (by decide)]
    exact Text.stops_cons.mpr rfl
  have noMember : (Grammar.member (name.toList ++ '.' :: (word.toList ++ more))).matched? =
      none := by
    simp only [Grammar.member, matched?_rule, matched?_bind, Grammar.name, matched?_token, found,
      matched?_sign_self, reserved.scanName? stops, Option.bind_some, Option.bind_none]
  rw [matched?_operand, matched?_call_of_noOpen found noOpen, noMember,
    matched?_literal_of_name proper (Text.stops_cons.mpr rfl),
    matched?_parameter_of_noSign (proper.stops rfl),
    matched?_parenthesised_of_noOpen (proper.stops rfl), found]
  rfl

/-- The item is all that is read of a filter on a property with a reserved name. -/
theorem matched?_expr_of_atReserved
    (proper : IsName name)
    (atReserved : AtReserved rest) :
    (expr (name.toList ++ rest)).matched? = some (.ok (.item name), rest) := by
  have noOperator : ∀ rest, AtReserved rest →
      scanOperator? (skipLayout .between rest) = none := by
    intro rest behind
    rw [behind.skipLayout_eq]
    obtain ⟨_, _, rfl, -⟩ := behind
    rfl
  have noNot : ∀ rest, AtReserved rest →
      scanWord? "not".toList (name.toList ++ rest) = none := by
    rintro rest ⟨_, _, rfl, -⟩
    exact proper.scanWord? (Text.stops_cons.mpr rfl) (by decide)
  have comparison :=
    ReadsAt.loneOperand (readsAt_item_of_atReserved proper) (fun _ => id) noOperator
  have unary : ReadsAt Grammar.unary AtReserved (.item name) name.toList :=
    fun _ _ nests rest => comparison.notNegated noNot (name.toList ++ rest).length nests rest
  have conjunction : ReadsAt Grammar.conjunction AtReserved (.item name) name.toList :=
    unary.keywordChain (fun _ => id) fun _ behind => behind.scanWord?_eq_none (by decide)
  have disjunction : ReadsAt Grammar.disjunction AtReserved (.item name) name.toList :=
    conjunction.keywordChain (fun _ => id) fun _ behind => behind.scanWord?_eq_none (by decide)
  rw [expr, exprWithin, matched?_rule]
  exact disjunction (nests_exprWithin _) rest atReserved (Nat.lt_succ_self _)

/-- A query is refused whose first filter runs into a point and a reserved word. -/
theorem matched?_query_of_atReserved
    (source : Source)
    (itemProper : IsName source.item)
    (entityProper : IsName source.entity)
    (proper : IsName name)
    (atReserved : AtReserved rest) :
    (Grammar.query ("from ".toList ++ (source.text ++
      ' ' :: ("where".toList ++ ' ' :: (name.toList ++ rest))))).matched? = none := by
  have goesOn : GoesOn ["where", "select", "order", "take"]
      (' ' :: ("where".toList ++ ' ' :: (name.toList ++ rest))) :=
    .inr ⟨"where", by simp, _, rfl⟩
  have noJoins : (repeated joinClause
      (' ' :: ("where".toList ++ ' ' :: (name.toList ++ rest)))).matched? = some ([], _) :=
    matched?_joins (.nil : List.Forall₂ Join.Spells [] []) (by simp) goesOn
  have isFilter : ((do layout; whereClause : Matcher (Reading Expr))
      (' ' :: ("where".toList ++ ' ' :: (name.toList ++ rest)))).matched? =
        some (.ok (.item name), rest) := by
    rw [matched?_bind_of_some matched?_layout,
      skipLayout_blank (opens_keyword "where" (by decide)), whereClause, matched?_rule,
      matched?_spaced_keyword rfl (proper.opens.append _),
      matched?_expr_of_atReserved proper atReserved]
  have filters : (repeated whereClause
      (' ' :: ("where".toList ++ ' ' :: (name.toList ++ rest)))).matched? =
        some ([.ok (.item name)], rest) :=
    matched?_many_of_some isFilter (matched?_upTo_of_none (atReserved.absent (by decide) _) _)
  have noProjection : (possibly selectClause rest).matched? = some (none, rest) :=
    matched?_optional_of_none (atReserved.absent (by decide) _)
  have noOrdering : (possibly orderClause rest).matched? = some (none, rest) :=
    matched?_optional_of_none (atReserved.absent (by decide) _)
  have noLimit : (possibly takeClause rest).matched? = some (none, rest) :=
    matched?_optional_of_none (atReserved.absent (by decide) _)
  have noSemicolon : (possibly (sign ';') rest).matched? = some (none, rest) := by
    refine matched?_optional_of_none ?_
    rw [matched?_bind_of_some matched?_layout, atReserved.skipLayout_eq]
    obtain ⟨_, _, rfl, -⟩ := atReserved
    exact matched?_sign_of_stops (Text.stops_cons.mpr rfl)
  have notEnded : (endOfText rest).matched? = none := by
    obtain ⟨_, _, rfl, -⟩ := atReserved
    rfl
  rw [Grammar.query, matched?_rule, matched?_bind_of_some matched?_layout, skipLayout_from,
    matched?_bind_of_some (matched?_fromClause itemProper entityProper (Text.stops_cons.mpr rfl)),
    matched?_bind_of_some noJoins, matched?_bind_of_some filters,
    matched?_bind_of_some noProjection, matched?_bind_of_some noOrdering,
    matched?_bind_of_some noLimit, matched?_bind_of_some noSemicolon,
    matched?_bind_of_some matched?_layout, atReserved.skipLayout_eq,
    matched?_bind_of_none notEnded]

/-- A filter on a property with a reserved name is refused. -/
theorem matched?_query_of_reserved_property
    (entityProper : IsName entity)
    (reserved : IsReserved property) :
    (Grammar.query (propertyText entity property).toList).matched? = none := by
  have item : IsName "x" := by decide
  rw [toList_propertyText]
  exact matched?_query_of_atReserved (ofProperty entity property).source item
    entityProper item
      ⟨_, _, rfl, reserved, Text.stops_cons.mpr (by decide : isNameChar ' ' = false)⟩

/-- Where the grammar matches nothing the text has a syntax error. -/
theorem exists_parse_eq_error
    {text : String}
    (notMatched : (Grammar.query text.toList).matched? = none) :
    ∃ position, Query.parse text = .error (.syntaxError position) := by
  rw [Query.parse, ofChars, notMatched]
  exact ⟨_, rfl⟩

/-- What the grammar takes for a name is an identifier that is not reserved, and all of those. -/
theorem exists_parses_name_iff :
    (∃ trees, Syntax.grammar.Parses (.rule .name) name.toList (some (trees, []))) ↔
      isIdentifier name = true ∧ ¬IsReserved name := by
  rw [← isName_iff]
  have taken : Syntax.Takes _ _ name.toList (scanName? name.toList) := Syntax.takes_name
  constructor
  · rintro ⟨trees, parses⟩
    generalize scanned : scanName? name.toList = answer at taken
    cases taken with
    | fails fails => cases parses.unique fails
    | @found value rest _ found =>
        cases parses.unique found
        obtain ⟨proper, shape, -⟩ := scanName?_eq_some_iff.mp scanned
        rw [List.append_nil] at shape
        exact String.toList_injective shape ▸ proper
  · intro proper
    have scanned := proper.scanName? Text.stops_nil
    rw [List.append_nil] at scanned
    rw [scanned] at taken
    cases taken with
    | found found => exact ⟨_, found⟩

end Query

open Query

/--
The grammar takes for names exactly the identifiers that are not reserved.  So an entity
that a model accepts and a property of it can be mentioned in a query exactly if neither
name is reserved: the text that mentions them is then read as the query with exactly these
names, and is no query otherwise.
-/
theorem Model.mentionable_iff_not_reserved
    {model : Model}
    {entity : Entity}
    {addition : Addition}
    (added : model.add entity = .ok addition)
    {property : Property}
    (isProperty : property ∈ entity.properties) :
    (∀ name : String,
      (∃ trees, Syntax.grammar.Parses (.rule .name) name.toList (some (trees, []))) ↔
        isIdentifier name = true ∧ ¬IsReserved name) ∧
      (¬IsReserved entity.name ∧ ¬IsReserved property.name →
        Query.parse (propertyText entity.name property.name) =
          .ok (ofProperty entity.name property.name)) ∧
      (IsReserved entity.name ∨ IsReserved property.name →
        ∃ position, Query.parse (propertyText entity.name property.name) =
          .error (.syntaxError position)) := by
  obtain ⟨entityName, -, properties, -⟩ := Entity.check_eq_ok.mp (add_eq_ok.mp added).1
  obtain ⟨propertyName, -⟩ := Entity.checkProperty_eq_ok.mp (properties _ isProperty)
  refine ⟨fun name => exists_parses_name_iff, ?_, ?_⟩
  · rintro ⟨entityFree, propertyFree⟩
    exact parse_of_spells spells_ofProperty (named_ofProperty
      (isName_iff.mpr ⟨entityName, entityFree⟩) (isName_iff.mpr ⟨propertyName, propertyFree⟩))
  · intro reserved
    refine exists_parse_eq_error ?_
    by_cases entityReserved : IsReserved entity.name
    · exact matched?_query_of_reserved_entity entityName entityReserved
    · exact matched?_query_of_reserved_property (isName_iff.mpr ⟨entityName, entityReserved⟩)
        (reserved.resolve_left entityReserved)

/-- Customers can be asked for their names, but not for the property that has the name `Like`. -/
theorem mentionable_likes :
    ∃ (entity : Entity) (addition : Model.Addition),
      Model.empty.add entity = .ok addition ∧
        Query.parse "from x in Customer where x.Name = 1" = .ok (ofProperty "Customer" "Name") ∧
        ∃ position, Query.parse "from x in Customer where x.Like = 1" =
          .error (.syntaxError position) := by
  let entity : Entity :=
    { name := "Customer", properties := [⟨"Name", .text, "Name"⟩, ⟨"Like", .text, "Like"⟩] }
  obtain ⟨addition, added⟩ : ∃ addition, Model.empty.add entity = .ok addition :=
    ⟨_, Model.add_eq_ok.mpr ⟨by decide +kernel, rfl⟩⟩
  have name := Model.mentionable_iff_not_reserved added
    (show ⟨"Name", .text, "Name"⟩ ∈ entity.properties by simp [entity])
  have like := Model.mentionable_iff_not_reserved added
    (show ⟨"Like", .text, "Like"⟩ ∈ entity.properties by simp [entity])
  exact ⟨entity, addition, added, name.2.1 (by decide), like.2.2 (.inr (by decide))⟩

/-- A model accepts an entity of orders, which no query can mention by that name. -/
theorem exists_added_not_mentionable :
    ∃ (entity : Entity) (addition : Model.Addition) (property : Property),
      Model.empty.add entity = .ok addition ∧ property ∈ entity.properties ∧
        ∀ query, Query.parse (propertyText entity.name property.name) ≠ .ok query := by
  refine ⟨{ name := "Order", properties := [⟨"Id", .integer, "Id"⟩] }, _, ⟨"Id", .integer, "Id"⟩,
    Model.add_eq_ok.mpr ⟨by decide +kernel, rfl⟩, by simp, fun query parsed => ?_⟩
  have refused : (Grammar.query (propertyText "Order" "Id").toList).matched? = none :=
    matched?_query_of_reserved_entity (by decide) (by decide)
  obtain ⟨position, failed⟩ := exists_parse_eq_error refused
  cases failed.symm.trans parsed

end FullTextQuery
