import FullTextQuery.Proofs.Syntax.Expressions

namespace FullTextQuery.Syntax

/-!
# Queries

Every clause is taken as its rule takes it, and its tree extends the query that
the clauses before it make.  A text is therefore read as a query exactly if the
grammar matches it and the integers in it fit, and the query read is the one that
the tree of the match stands for.
-/

open PegGrammar Query Query.Matcher

variable {α : Type} {bound : Nat} {cs : List Char}

section Keywords

variable {w : String} {text : List Char} {inner trees : List (Tree Rule)} {t : Tree Rule}

/-- Keywords are left out of the parts of a clause. -/
theorem filter_keyword :
    (.node (.keyword w) text inner :: trees).filter (fun t => !isKeyword t) =
      trees.filter fun t => !isKeyword t :=
  rfl

theorem filter_other
    (other : isKeyword t = false) :
    (t :: trees).filter (fun t => !isKeyword t) = t :: trees.filter fun t => !isKeyword t :=
  List.filter_cons_of_pos (by simp [other])

theorem filter_name :
    (.node .name text inner :: trees).filter (fun t => !isKeyword t) =
      .node .name text inner :: trees.filter fun t => !isKeyword t :=
  rfl

/-- Trees of another rule are no keywords. -/
theorem filter_gathered
    {r : Rule}
    {build : Tree Rule → Except TreeError α}
    {readings : List (Reading α)}
    (noKeyword : ∀ word, r ≠ .keyword word)
    (gathered : Gathered (Stands r build) readings trees) :
    trees.filter (fun t => !isKeyword t) = trees := by
  induction gathered with
  | nil => rfl
  | cons isRead _ inductionHypothesis =>
      obtain ⟨t, rfl, isRule, -⟩ := isRead
      rw [List.singleton_append, filter_other (isKeyword_eq_false (isRule ▸ noKeyword)),
        inductionHypothesis]

end Keywords

theorem mirrors_name :
    Mirrors bound 1 (.rule .name) (Token .name fun name text => text = name.toList)
      Grammar.name :=
  .ofTakes takes_nameMatcher

theorem mirrors_operandOfQuery :
    Mirrors bound 1 (.rule .operand) (Stands .operand operandOf)
      (Grammar.operand Grammar.expr) :=
  (mirrors_operand mirrors_expr).mono (Nat.le_succ bound)

/-- The tree of a clause, which extends any query begun before it by what was read. -/
def Clause
    (extend : α → Query → Query)
    (reading : Reading α)
    (trees : List (Tree Rule)) :
    Prop :=
  ∃ t, trees = [t] ∧ ∀ query, Settles (IntegersFit t) (addClause (some query) t)
    ((fun value => some (extend value query)) <$> reading)

/-- The matcher of the source mirrors its rule. -/
theorem mirrors_fromClause :
    Mirrors bound 1 (.rule .fromClause)
      (fun source trees => ∃ t, trees = [t] ∧ IntegersFit t ∧
        addClause none t = .ok (some { source := source }))
      Grammar.fromClause := by
  refine .rule (fun _ _ => rfl) ?_
  refine (mirrors_keyword "from" (by simp)).spacedThen le_rfl ?_
  rintro _ _ ⟨fromText, rfl, -⟩
  refine mirrors_name.spacedThen (by omega) ?_
  rintro item _ ⟨_, rfl, rfl⟩
  refine (mirrors_keyword "in" (by simp)).spacedThen (by omega) ?_
  rintro _ _ ⟨inText, rfl, -⟩
  refine mirrors_name.finish (by omega) (fun _ _ => rfl) ?_
  rintro entity _ ⟨_, rfl, rfl⟩ text
  refine ⟨_, rfl, ?_, ?_⟩
  · simp [integersFit_node]
  · simp [addClause, filter_keyword, filter_name]

/-- A joined source extends the joins. -/
def addJoin
    (join : Join)
    (query : Query) :
    Query :=
  { query with joins := query.joins ++ [join] }

theorem mirrors_joinClause :
    Mirrors bound 1 (.rule .joinClause) (Clause addJoin) Grammar.joinClause := by
  refine .rule (fun _ _ => rfl) ?_
  refine (mirrors_keyword "join" (by simp)).spacedThen le_rfl ?_
  rintro _ _ ⟨joinText, rfl, -⟩
  refine mirrors_name.spacedThen (by omega) ?_
  rintro item _ ⟨_, rfl, rfl⟩
  refine (mirrors_keyword "in" (by simp)).spacedThen (by omega) ?_
  rintro _ _ ⟨inText, rfl, -⟩
  refine mirrors_name.spacedThen (by omega) ?_
  rintro entity _ ⟨_, rfl, rfl⟩
  refine (mirrors_keyword "on" (by simp)).spacedThen (by omega) ?_
  rintro _ _ ⟨onText, rfl, -⟩
  refine mirrors_operandOfQuery.spacedThen (by omega) ?_
  rintro left _ ⟨l, rfl, isOperand, leftSettles⟩
  refine (Mirrors.sign '=').spacedThen (by omega) ?_
  rintro _ _ rfl
  refine mirrors_operandOfQuery.finish (by omega) (fun _ _ => rfl) ?_
  rintro right _ ⟨r, rfl, isOperand', rightSettles⟩ text
  refine ⟨_, rfl, fun query => ?_⟩
  have leftStays : isKeyword l = false := isKeyword_eq_false (by simp [isOperand])
  have rightStays : isKeyword r = false := isKeyword_eq_false (by simp [isOperand'])
  have built : addClause (some query) (.node .joinClause text
      [.node (.keyword "join") joinText [], .node .name item.toList [],
        .node (.keyword "in") inText [], .node .name entity.toList [],
        .node (.keyword "on") onText [], l, r]) =
      operandOf l >>= fun e => (fun e' => some (addJoin ⟨⟨item, entity⟩, e, e'⟩ query)) <$>
        operandOf r := by
    simp only [addClause, Tree.rule_node, Tree.parts_node, filter_keyword, filter_name,
      filter_other leftStays, filter_other rightStays, List.filter_nil, begun, next_cons,
      Except.ok_bind, Tree.spelling_node, String.ofList_toList]
    cases operandOf l with
    | error e => rfl
    | ok left => cases operandOf r <;> rfl
  simp only [List.singleton_append, List.nil_append]
  rw [built]
  have settles := leftSettles.bind fun e => rightSettles.map fun e' =>
    some (addJoin ⟨⟨item, entity⟩, e, e'⟩ query)
  convert settles.congr ?_ using 1
  · cases left with
    | error which => rfl
    | ok left => cases right <;> rfl
  · simp [integersFit_node]

/-- A filter extends the filters. -/
def addFilter
    (predicate : Expr)
    (query : Query) :
    Query :=
  { query with filters := query.filters ++ [predicate] }

theorem mirrors_whereClause :
    Mirrors bound 1 (.rule .whereClause) (Clause addFilter) Grammar.whereClause := by
  refine .rule (fun _ _ => rfl) ?_
  refine (mirrors_keyword "where" (by simp)).spacedThen le_rfl ?_
  rintro _ _ ⟨whereText, rfl, -⟩
  refine mirrors_expr.weaken ?_ (by omega)
  rintro reading _ ⟨t, rfl, isExpr, settles⟩ text
  refine ⟨_, rfl, fun query => ?_⟩
  have stays : isKeyword t = false := isKeyword_eq_false (by simp [isExpr])
  have built : addClause (some query)
      (.node .whereClause text [.node (.keyword "where") whereText [], t]) =
        (fun e => some (addFilter e query)) <$> exprOf t := by
    simp only [addClause, Tree.rule_node, Tree.parts_node, filter_keyword, filter_other stays,
      begun, Except.ok_bind, next_cons]
    cases exprOf t <;> rfl
  rw [List.singleton_append, built]
  exact (settles.map _).congr (by simp [integersFit_node])

/-- A projection takes the place of the projection before it. -/
def setProjection
    (projection : List Expr)
    (query : Query) :
    Query :=
  { query with projection := projection }

/-- The matcher of result expressions mirrors their rule. -/
theorem mirrors_selectClause :
    Mirrors bound 1 (.rule .selectClause) (Clause setProjection) Grammar.selectClause := by
  refine .rule (fun _ _ => rfl) ?_
  refine (mirrors_keyword "select" (by simp)).spacedThen le_rfl ?_
  rintro _ _ ⟨selectText, rfl, -⟩
  refine (mirrors_expr.separated).finish (by omega) (fun _ _ => rfl) ?_
  rintro readings trees gathered text
  refine ⟨_, rfl, fun query => ?_⟩
  have built : addClause (some query)
      (.node .selectClause text (.node (.keyword "select") selectText [] :: trees)) =
        (fun es => some (setProjection es query)) <$> argsOf trees := by
    simp only [addClause, Tree.rule_node, Tree.parts_node, filter_keyword,
      filter_gathered (by simp) gathered, begun]
    cases argsOf trees <;> rfl
  rw [List.singleton_append, built]
  exact ((settles_argsOf gathered).map _).congr (by simp [integersFit_node])

/-- Sort keys extend the ordering. -/
def addOrdering
    (keys : List SortKey)
    (query : Query) :
    Query :=
  { query with ordering := query.ordering ++ keys }

/-- The matcher of sort keys mirrors their rule. -/
theorem mirrors_sortKey :
    Mirrors bound 1 (.rule .sortKey) (Stands .sortKey sortKeyOf) Grammar.sortKey := by
  refine .rule (fun _ _ => rfl) ?_
  refine mirrors_expr.andThen le_rfl ?_
  rintro reading _ ⟨t, rfl, -, settles⟩
  have direction : Follows bound 0 _ (fun descending trees =>
      (descending = none ∧ trees = []) ∨
      ∃ text, trees = [.node .direction text []] ∧
        descending = some (decide (text.map Char.toLower = "desc".toList))) _ :=
    Follows.optional (.ofTakes fun _ => takes_direction) (.inl ⟨rfl, rfl⟩) <| by
      rintro descending _ ⟨text, rfl, rfl⟩
      exact .inr ⟨text, rfl, rfl⟩
  refine direction.finish le_rfl (fun _ _ => rfl) ?_
  rintro descending trees spelled text
  refine ⟨_, rfl, rfl, ?_⟩
  have built : sortKeyOf (.node .sortKey text (t :: trees)) =
      (fun e => ⟨e, descending.getD false⟩) <$> exprOf t := by
    rcases spelled with ⟨rfl, rfl⟩ | ⟨text, rfl, rfl⟩
    · simp only [sortKeyOf, Tree.parts_node, next_cons, Except.ok_bind]
      cases exprOf t <;> rfl
    · simp only [sortKeyOf, Tree.parts_node, next_cons, Except.ok_bind]
      cases exprOf t <;> rfl
  rw [List.singleton_append, built]
  refine (settles.map _).congr ?_
  rcases spelled with ⟨-, rfl⟩ | ⟨text, rfl, -⟩ <;> simp [integersFit_node]

/-- Sort keys are read one by one. -/
theorem settles_sortKeys
    {readings : List (Reading SortKey)}
    {trees : List (Tree Rule)}
    (gathered : Gathered (Stands .sortKey sortKeyOf) readings trees) :
    Settles (AllIntegersFit trees) (trees.mapM sortKeyOf) (Grammar.collect readings) := by
  induction gathered with
  | nil => exact .ok trivial
  | cons isRead _ inductionHypothesis =>
      obtain ⟨t, rfl, -, settles⟩ := isRead
      rw [List.singleton_append, List.mapM_cons, Grammar.collect]
      exact settles.bind fun value => inductionHypothesis.map (value :: ·)

theorem mirrors_orderClause :
    Mirrors bound 1 (.rule .orderClause) (Clause addOrdering) Grammar.orderClause := by
  refine .rule (fun _ _ => rfl) ?_
  refine (mirrors_keyword "order" (by simp)).spacedThen le_rfl ?_
  rintro _ _ ⟨orderText, rfl, -⟩
  refine (mirrors_keyword "by" (by simp)).spacedThen (by omega) ?_
  rintro _ _ ⟨byText, rfl, -⟩
  refine (mirrors_sortKey.separated).finish (by omega) (fun _ _ => rfl) ?_
  rintro readings trees gathered text
  refine ⟨_, rfl, fun query => ?_⟩
  have built : addClause (some query)
      (.node .orderClause text (.node (.keyword "order") orderText [] ::
        .node (.keyword "by") byText [] :: trees)) =
        (fun keys => some (addOrdering keys query)) <$> trees.mapM sortKeyOf := by
    simp only [addClause, Tree.rule_node, Tree.parts_node, filter_keyword,
      filter_gathered (by simp) gathered, begun, Except.ok_bind]
    cases trees.mapM sortKeyOf <;> rfl
  simp only [List.singleton_append]
  rw [built]
  exact ((settles_sortKeys gathered).map _).congr (by simp [integersFit_node])

/-- A count limits the rows. -/
def setLimit
    (count : UInt64)
    (query : Query) :
    Query :=
  { query with limit? := some count }

/-- A count is read exactly if it is written without a sign and fits. -/
theorem isSome_below?_iff
    (negative : Bool)
    {digits : List Char}
    (proper : IsDigits digits) :
    (Decimal.below? UInt64.size (minus negative ++ digits)).isSome ↔
      FitsCount (minus negative ++ digits) := by
  cases negative with
  | true =>
      have signed : Decimal.natural? ('-' :: digits) = none := by
        simp [Decimal.natural?, (by decide : Decimal.isDigit '-' = false)]
      simp [minus, Decimal.below?, FitsCount, signed]
  | false =>
      have noPlus := digits_ne_sign proper (by decide : Decimal.isDigit '+' = false)
      have noMinus : digits.head? ≠ some '-' := by
        intro front
        obtain ⟨others, shape⟩ := List.head?_eq_some_iff.mp front
        exact digits_ne_sign proper (by decide : Decimal.isDigit '-' = false) others shape
      simp only [minus, List.nil_append]
      rw [Decimal.below?.eq_2 _ _ noPlus, natural?_eq proper]
      simp [Option.filter, FitsCount, noMinus, UInt64.size]

theorem mirrors_takeClause :
    Mirrors bound 1 (.rule .takeClause) (Clause setLimit) Grammar.takeClause := by
  refine .rule (fun _ _ => rfl) ?_
  refine (mirrors_keyword "take" (by simp)).spacedThen le_rfl ?_
  rintro _ _ ⟨takeText, rfl, -⟩ cs short
  have scanned : Mirrors bound 1 (.rule .integer) (Token .integer fun digits text =>
      text = digits ∧ ∃ negative unsigned, digits = minus negative ++ unsigned ∧
        IsDigits unsigned) (token scanInteger?) := by
    refine .ofTakes fun cs => ?_
    rw [matched?_token]
    exact takes_integer
  rw [matched?_bind_of_some matched?_left]
  refine (scanned cs short).finish (by omega)
    (f := fun digits => (Decimal.below? UInt64.size digits).elim
      (.error ⟨String.ofList digits, cs.length⟩) fun n => .ok (UInt64.ofNat n)) ?_ ?_
  · intro digits rest
    cases Decimal.below? UInt64.size digits <;> rfl
  · rintro digits _ ⟨_, rfl, rfl, negative, unsigned, rfl, proper⟩ text
    refine ⟨_, rfl, fun query => ?_⟩
    have fits : IntegersFit (.node .takeClause text
        [.node (.keyword "take") takeText [],
          .node .integer (minus negative ++ unsigned) []]) ↔
        (Decimal.below? UInt64.size (minus negative ++ unsigned)).isSome := by
      rw [isSome_below?_iff negative proper]
      simp [IntegersFit]
    simp only [List.singleton_append, addClause, Tree.rule_node, Tree.parts_node, Tree.text_node,
      filter_keyword, filter_other (rfl : isKeyword (.node .integer _ []) = false),
      List.filter_nil, begun, next_cons, Except.ok_bind]
    generalize Decimal.below? UInt64.size (minus negative ++ unsigned) = read at fits
    cases read with
    | none => exact .misfit (by simp [fits])
    | some n => exact .ok (by simp [fits])

/-- The matcher of the end of a text mirrors its rule. -/
theorem mirrors_endOfText :
    Mirrors bound 0 (.rule .endOfText)
      (fun _ trees => trees = [.node .endOfText [] []]) Grammar.endOfText := by
  intro cs _
  rw [Grammar.endOfText, matched?_token]
  cases cs with
  | nil => exact .found parses_endOfText rfl rfl le_rfl
  | cons c rest => exact .fails not_parses_endOfText

/-- Layout at the start. -/
theorem Mirrors.start
    {p : Peg Rule}
    {least : Nat}
    {reads : α → List (Tree Rule) → Prop}
    {m : Matcher α}
    (mirrors : Mirrors bound least p reads m) :
    Mirrors bound least (.seq .empty (.seq layout p)) reads
      (Grammar.layout >>= fun _ => m) := by
  intro cs short
  have agrees := Follows.layout mirrors cs short
  generalize ((Grammar.layout >>= fun _ => m) cs).matched? = answer at agrees
  cases agrees with
  | fails parses => exact .fails (.andThenFails .empty (.andThenFails (parses_layout cs) parses))
  | found parses isRead same shorter =>
      exact .found (.andThen .empty (.andThen (parses_layout cs) parses)) isRead same shorter

/-- Trees of clauses that extend a query begun before them, if what was read can be used. -/
def Extends
    (step : Query → Reading Query)
    (trees : List (Tree Rule)) :
    Prop :=
  ∀ query, Settles (AllIntegersFit trees) (trees.foldlM addClause (some query))
    (some <$> step query)

/-- Trees behind others extend a query one after another. -/
theorem Extends.append
    {first second : Query → Reading Query}
    {front back : List (Tree Rule)}
    (one : Extends first front)
    (two : Extends second back) :
    Extends (fun query => first query >>= second) (front ++ back) := by
  intro query
  rw [List.foldlM_append]
  change Settles _ _ (some <$> (first query >>= second))
  have firstSettles := one query
  generalize front.foldlM addClause (some query) = built at firstSettles
  generalize first query = reading at firstSettles
  cases reading with
  | error which =>
      cases firstSettles with
      | misfit fails =>
          exact .misfit fun both => fails ((allIntegersFit_append front back).mp both).1
  | ok next =>
      cases firstSettles with
      | ok fits =>
          refine (two next).congr ?_
          rw [allIntegersFit_append, and_iff_right fits]

theorem Extends.congr
    {step other : Query → Reading Query}
    {trees : List (Tree Rule)}
    (extension : Extends step trees)
    (same : ∀ query, step query = other query) :
    Extends other trees := by
  intro query
  rw [← same]
  exact extension query

/-- A clause extends a query by what it stands for. -/
theorem Extends.ofClause
    {extend : α → Query → Query}
    {reading : Reading α}
    {trees : List (Tree Rule)}
    (clause : Clause extend reading trees) :
    Extends (fun query => (extend · query) <$> reading) trees := by
  obtain ⟨t, rfl, settles⟩ := clause
  intro query
  have built : [t].foldlM addClause (some query) = addClause (some query) t := by
    rw [List.foldlM_cons]
    cases addClause (some query) t <;> rfl
  rw [built]
  convert (settles query).congr ?_ using 1
  · cases reading <;> rfl
  · simp

/-- No trees leave a query as it is. -/
theorem Extends.nothing :
    Extends (fun query => .ok query) [] :=
  fun _ => .ok trivial

/-- A clause that may be missing. -/
def Optionally
    (extend : α → Query → Query)
    (reading? : Option (Reading α))
    (trees : List (Tree Rule)) :
    Prop :=
  match reading? with
  | none => trees = []
  | some reading => Clause extend reading trees

/-- An optional clause extends a query if it is there. -/
theorem Extends.ofOptionally
    {extend : α → Query → Query}
    {reading? : Option (Reading α)}
    {trees : List (Tree Rule)}
    (optionally : Optionally extend reading? trees) :
    Extends
      (fun query => match reading? with
        | none => .ok query
        | some reading => (extend · query) <$> reading) trees := by
  cases reading? with
  | none =>
      obtain rfl : trees = [] := optionally
      exact .nothing
  | some reading => exact .ofClause optionally

/-- Repeated clauses extend a query one after another. -/
theorem Extends.ofGathered
    {extend : α → Query → Query}
    {readings : List (Reading α)}
    {trees : List (Tree Rule)}
    (gathered : Gathered (Clause extend) readings trees) :
    Extends
      (fun query => (fun values => values.foldl (fun query value => extend value query) query) <$>
        Grammar.collect readings) trees := by
  induction gathered with
  | nil => exact .nothing
  | @cons reading readings front back isRead _ inductionHypothesis =>
      refine ((Extends.ofClause isRead).append inductionHypothesis).congr fun query => ?_
      rw [Grammar.collect]
      cases reading with
      | error which => rfl
      | ok value => cases Grammar.collect readings <;> rfl

theorem Extends.endOfText :
    Extends (fun query => .ok query) [.node .endOfText [] []] := by
  intro query
  exact .ok ⟨integersFit_leaf (by simp) (by simp), trivial⟩

/-- Joins that are added one by one stand behind those that are there. -/
theorem foldl_addJoin
    (joins : List Join)
    (query : Query) :
    joins.foldl (fun query join => addJoin join query) query =
      { query with joins := query.joins ++ joins } := by
  induction joins generalizing query with
  | nil => simp
  | cons join joins inductionHypothesis => rw [List.foldl_cons, inductionHypothesis]; simp [addJoin]

/-- Filters that are added one by one stand behind those that are there. -/
theorem foldl_addFilter
    (filters : List Expr)
    (query : Query) :
    filters.foldl (fun query predicate => addFilter predicate query) query =
      { query with filters := query.filters ++ filters } := by
  induction filters generalizing query with
  | nil => simp
  | cons predicate filters inductionHypothesis =>
      rw [List.foldl_cons, inductionHypothesis]
      simp [addFilter]

/-- A query text is taken as the rule for queries takes it. -/
theorem mirrors_query :
    Mirrors bound 1 (.rule .query)
      (fun reading trees => Settles (AllIntegersFit trees) (queryOf trees) reading)
      Grammar.query := by
  refine .rule (fun _ _ => rfl) (.start ?_)
  refine mirrors_fromClause.andThen le_rfl ?_
  rintro source _ ⟨fromTree, rfl, fromFits, fromBuilt⟩
  refine (Follows.many mirrors_joinClause).andThen (by omega) ?_
  intro joins joinTrees joinsGathered
  refine (Follows.many mirrors_whereClause).andThen (by omega) ?_
  intro filters filterTrees filtersGathered
  have select : Follows bound 0 _ (Optionally setProjection) _ :=
    Follows.optional mirrors_selectClause rfl fun _ _ isRead => isRead
  refine select.andThen (by omega) ?_
  intro projection projectionTrees projectionRead
  have order : Follows bound 0 _ (Optionally addOrdering) _ :=
    Follows.optional mirrors_orderClause rfl fun _ _ isRead => isRead
  refine order.andThen (by omega) ?_
  intro ordering orderingTrees orderingRead
  have take : Follows bound 0 _ (Optionally setLimit) _ :=
    Follows.optional mirrors_takeClause rfl fun _ _ isRead => isRead
  refine take.andThen (by omega) ?_
  intro limit limitTrees limitRead
  have semicolon : Follows bound 0 _ (fun _ trees => trees = []) _ :=
    Follows.optional (Mirrors.sign ';') rfl fun _ _ isRead => isRead
  refine semicolon.andThen (by omega) ?_
  rintro _ _ rfl
  refine .layout (mirrors_endOfText.finish le_rfl (fun _ _ => rfl) ?_)
  rintro _ _ rfl text
  have clauses := (Extends.ofGathered joinsGathered).append
    ((Extends.ofGathered filtersGathered).append
      ((Extends.ofOptionally projectionRead).append
        ((Extends.ofOptionally orderingRead).append
          ((Extends.ofOptionally limitRead).append .endOfText))))
  have settles := clauses { source := source }
  have begins : ∀ others, ([fromTree] ++ others).foldlM addClause none =
      others.foldlM addClause (some { source := source }) := by
    intro others
    rw [List.singleton_append, List.foldlM_cons, fromBuilt, Except.ok_bind]
  have fits : ∀ others, AllIntegersFit [.node .query text ([fromTree] ++ others)] ↔
      AllIntegersFit others := by
    simp [integersFit_node, fromFits]
  rw [fits]
  simp only [queryOf, next_cons, Except.ok_bind, Tree.parts_node, begins, List.nil_append]
  generalize List.foldlM addClause (some { source := source }) (joinTrees ++ _) = built at settles
  have wrapped : ∀ {fits : Prop} {reading : Reading Query},
      Settles fits built (some <$> reading) → Settles fits (built >>= begun) reading := by
    rintro fits reading settles
    cases reading with
    | error which =>
        cases settles with
        | misfit fails => exact .misfit fails
    | ok query =>
        cases settles with
        | ok fits => exact .ok fits
  convert wrapped settles using 1
  simp only [foldl_addJoin, foldl_addFilter]
  cases Grammar.collect joins with
  | error which => rfl
  | ok joins =>
      cases Grammar.collect filters with
      | error which => rfl
      | ok filters =>
          rcases projection with _ | _ | projection
          all_goals rcases ordering with _ | _ | ordering
          all_goals rcases limit with _ | _ | limit
          all_goals rfl

/-- Whether an expression only matches up to the end of the text. -/
def EndsText
    (p : Peg Rule) :
    Prop :=
  ∀ cs trees rest, grammar.Parses p cs (some (trees, rest)) → rest = []

namespace EndsText

/-- What ends with the end of a text ends it. -/
theorem seq
    {first second : Peg Rule}
    (ends : EndsText second) :
    EndsText (.seq first second) := by
  intro cs trees rest parses
  generalize shape : some (trees, rest) = answer at parses
  cases parses with
  | seqFails => cases shape
  | @seq _ _ _ between front answer one two =>
      cases answer with
      | none => cases shape
      | some found =>
          cases shape
          exact ends _ _ _ two

theorem rule
    {r : Rule}
    (ends : EndsText (grammar.inside r)) :
    EndsText (.rule r) := by
  intro cs trees rest parses
  generalize shape : some (trees, rest) = answer at parses
  cases parses with
  | @rule _ _ answer inside =>
      cases answer with
      | none => cases shape
      | some found =>
          cases shape
          exact ends _ _ _ inside

theorem endOfText :
    EndsText (.rule .endOfText) := by
  intro cs trees rest parses
  cases cs with
  | nil => cases parses.unique parses_endOfText; rfl
  | cons c others => cases parses.unique not_parses_endOfText

/-- Each part of a query stands in front of layout and the parts behind it. -/
theorem query :
    EndsText (.rule .query) :=
  .rule (.seq (.seq (.seq (.seq (.seq (.seq (.seq (.seq (.seq (.seq (.seq (.seq (.seq (.seq
    (.seq (.seq endOfText))))))))))))))))

end EndsText

/-- What the matcher of queries answers is decided by the one match of the text. -/
theorem exists_reading_of_matches
    {text : String}
    {trees : List (Tree Rule)}
    (matched : Matches text trees) :
    ∃ reading, Settles (AllIntegersFit trees) (queryOf trees) reading ∧
      ∀ query, Query.parse text = .ok query ↔ reading = .ok query := by
  have agrees := mirrors_query text.toList (Nat.lt_succ_self _)
  simp only [parse_eq_ok_iff]
  generalize (Grammar.query text.toList).matched? = answer at agrees
  cases agrees with
  | fails parses => cases Parses.unique matched parses
  | @found reading others last rest parses settles =>
      cases Parses.unique matched parses
      exact ⟨reading, settles, fun query => by simp⟩

/-- A text that is not matched is no query. -/
theorem exists_matches_of_parse
    {text : String}
    {query : Query}
    (parsed : Query.parse text = .ok query) :
    ∃ trees, Matches text trees := by
  have agrees := mirrors_query text.toList (Nat.lt_succ_self _)
  obtain ⟨rest, matched⟩ := parse_eq_ok_iff.mp parsed
  rw [matched] at agrees
  cases agrees with
  | @found _ trees last _ parses =>
      obtain rfl := EndsText.query _ _ _ parses
      exact ⟨trees, parses⟩

/--
A text is read as a query exactly if the grammar matches all of it and its integers
fit.  It is then the query that the trees of the match stand for, and whatever the
integers are, no part is missing in the trees.
-/
theorem parse_eq_ok_iff_matches
    (text : String) :
    (∀ query, Query.parse text = .ok query ↔
      ∃ trees, Matches text trees ∧ AllIntegersFit trees ∧ queryOf trees = .ok query) ∧
    ∀ trees, Matches text trees →
      (AllIntegersFit trees → ∃ query, queryOf trees = .ok query) ∧
        ∀ what, queryOf trees ≠ .error (.missing what) := by
  constructor
  · intro query
    constructor
    · intro parsed
      obtain ⟨trees, matched⟩ := exists_matches_of_parse parsed
      obtain ⟨reading, settles, isParsed⟩ := exists_reading_of_matches matched
      exact ⟨trees, matched, settles.iff_ok.mp ((isParsed query).mp parsed)⟩
    · rintro ⟨trees, matched, fits⟩
      obtain ⟨reading, settles, isParsed⟩ := exists_reading_of_matches matched
      exact (isParsed query).mpr (settles.iff_ok.mpr fits)
  · intro trees matched
    obtain ⟨reading, settles, -⟩ := exists_reading_of_matches matched
    exact ⟨settles.exists_ok, settles.not_missing⟩

theorem exists_matches_withPrecedence :
    ∃ trees, Matches "from c in C where not c.A = 1 and c.B or @p take 5" trees ∧
      AllIntegersFit trees ∧
        queryOf trees = .ok
          { source := ⟨"c", "C"⟩
            filters :=
              [.or (.and (.not (.compare (.member "c" "A") .eq (.literal (.integer 1))))
                (.member "c" "B")) (.parameter "p")]
            limit? := some 5 } :=
  ((parse_eq_ok_iff_matches _).1 _).mp (by decide +kernel)

end FullTextQuery.Syntax
