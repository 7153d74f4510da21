import FullTextQuery.Proofs.Query.CanonicalQueries
import FullTextQuery.Proofs.Syntax.Queries

namespace FullTextQuery

namespace PegGrammar.Parses

variable {ρ : Type} {g : PegGrammar ρ} {p first second : Peg ρ} {cs between rest : List Char}
  {front trees : List (Tree ρ)} {found : List (Tree ρ) × List Char}

/-- A sequence matches if its parts do, one behind the other. -/
theorem seq_iff :
    g.Parses (.seq p second) cs (some (trees, rest)) ↔
      ∃ front between back, g.Parses p cs (some (front, between)) ∧
        g.Parses second between (some (back, rest)) ∧ trees = front ++ back := by
  constructor
  · intro parses
    generalize shape : some (trees, rest) = answer at parses
    cases parses with
    | seqFails => cases shape
    | @seq _ _ _ between front answer one two =>
        cases answer with
        | none => cases shape
        | some found =>
            cases shape
            exact ⟨front, between, found.1, one, two, rfl⟩
  · rintro ⟨front, between, back, one, two, rfl⟩
    exact .andThen one two

theorem seq_iff_of_found
    (one : g.Parses first cs (some (front, between))) :
    g.Parses (.seq first second) cs (some (trees, rest)) ↔
      ∃ back, g.Parses second between (some (back, rest)) ∧ trees = front ++ back := by
  rw [seq_iff]
  constructor
  · rintro ⟨front', between', back, other, two, rfl⟩
    cases one.unique other
    exact ⟨back, two, rfl⟩
  · rintro ⟨back, two, rfl⟩
    exact ⟨front, between, back, one, two, rfl⟩

/-- A first part without trees leaves the whole to the second one. -/
theorem seq_iff_of_silent
    (one : g.Parses first cs (some ([], between))) :
    g.Parses (.seq first second) cs (some found) ↔ g.Parses second between (some found) := by
  obtain ⟨trees, rest⟩ := found
  simp [seq_iff_of_found one]

/-- A rule matches what is inside it. -/
theorem rule_iff
    {r : ρ} :
    g.Parses (.rule r) cs (some (trees, rest)) ↔
      ∃ parts, g.Parses (g.inside r) cs (some (parts, rest)) ∧
        trees = g.trees r (cs.take (cs.length - rest.length)) parts := by
  constructor
  · intro parses
    generalize shape : some (trees, rest) = answer at parses
    cases parses with
    | @rule _ _ answer inside =>
        cases answer with
        | none => cases shape
        | some found =>
            cases shape
            exact ⟨found.1, inside, rfl⟩
  · rintro ⟨parts, inside, rfl⟩
    exact .ofInside inside

theorem not_seq_of_fails
    (fails : g.Parses first cs none) :
    ¬ g.Parses (.seq first second) cs (some found) :=
  fun parses => nomatch unique (.seqFails fails) parses

theorem many_iff_of_found
    (one : g.Parses p cs (some (front, between))) :
    g.Parses (.many p) cs (some (trees, rest)) ↔
      ∃ back, g.Parses (.many p) between (some (back, rest)) ∧ trees = front ++ back := by
  constructor
  · intro parses
    generalize shape : some (trees, rest) = answer at parses
    cases parses with
    | manyStops fails => cases one.unique fails
    | @many _ _ _ _ answer other others =>
        cases one.unique other
        cases answer with
        | none => cases shape
        | some found =>
            cases shape
            exact ⟨found.1, others, rfl⟩
  · rintro ⟨back, others, rfl⟩
    exact .more one others

/-- An optional part is nothing where it fails. -/
theorem optional_of_fails
    (fails : g.Parses p cs none) :
    g.Parses (.optional p) cs (some ([], cs)) :=
  .choiceSecond fails .empty

/-- A repetition never fails. -/
theorem not_many_fails :
    ¬ g.Parses (.many p) cs none := by
  intro parses
  generalize whole : Peg.many p = q at parses
  generalize fails : none = answer at parses
  induction parses with
  | many _ others _ inductionHypothesis =>
      rename_i answer _ _
      cases whole
      cases answer with
      | none => exact inductionHypothesis rfl rfl
      | some found => cases fails
  | manyStops => cases fails
  | _ => cases whole

/-- An optional repetition is there as soon as its first part is. -/
theorem optional_iff_of_found
    (one : g.Parses first cs (some (front, between))) :
    g.Parses (.optional (.seq first (.many second))) cs (some found) ↔
      g.Parses (.seq first (.many second)) cs (some found) := by
  constructor
  · intro parses
    cases parses with
    | choiceFirst parses => exact parses
    | choiceSecond fails =>
        generalize shape : none = answer at fails
        cases fails with
        | seqFails fails => cases one.unique fails
        | @seq _ _ _ _ _ answer other others =>
            cases answer with
            | none => exact absurd others not_many_fails
            | some found => cases shape
  · exact .choiceFirst

end PegGrammar.Parses

namespace Syntax

/-!
# Lone expressions

A lone expression is read as the first filter of a query.  Whatever a query may
have behind a filter may therefore stand behind the expression; it has to be
right, but nothing of it is in what is read.
-/

open PegGrammar Query Query.Matcher Query.Grammar

variable {α : Type} {p q : Peg Rule} {cs : List Char} {found : List (Tree Rule) × List Char}

/-- Layout in front of an expression is left out. -/
theorem parses_layout_seq_iff :
    grammar.Parses (.seq layout p) cs (some found) ↔
      grammar.Parses p (skipLayout .between cs) (some found) :=
  Parses.seq_iff_of_silent (parses_layout cs)

/-- Repetitions with layout in front of each are repetitions with layout between them. -/
theorem parses_repeated_iff
    (decided : ∃ answer, grammar.Parses p (skipLayout .between cs) answer) :
    grammar.Parses (.seq (.many (.seq layout p)) (.seq layout q)) cs (some found) ↔
      grammar.Parses
        (.seq layout (.seq (.optional (.seq p (.many (.seq layout p)))) (.seq layout q))) cs
        (some found) := by
  obtain ⟨answer, decided⟩ := decided
  obtain ⟨trees, rest⟩ := found
  rw [parses_layout_seq_iff]
  cases answer with
  | none =>
      have stops : grammar.Parses (.many (.seq layout p)) cs (some ([], cs)) :=
        .manyStops (.andThenFails (parses_layout cs) decided)
      rw [Parses.seq_iff_of_silent stops, parses_layout_seq_iff,
        Parses.seq_iff_of_silent (.optional_of_fails (.seqFails decided)),
        parses_layout_seq_iff, skipLayout_skipLayout]
  | some first =>
      obtain ⟨front, between⟩ := first
      simp only [Parses.seq_iff (p := .many _), Parses.seq_iff (p := .optional _),
        Parses.optional_iff_of_found decided, Parses.seq_iff_of_found decided,
        Parses.many_iff_of_found (.andThen (parses_layout cs) decided)]
      simp

section Decided

variable {least : Nat} {reads : α → List (Tree Rule) → Prop} {m : Matcher α}

/-- What a matcher takes is decided by the grammar. -/
theorem Mirrors.exists_parses
    (mirrors : Mirrors (cs.length + 1) least p reads m) :
    ∃ answer, grammar.Parses p cs answer := by
  have agrees := mirrors cs (Nat.lt_succ_self _)
  generalize (m cs).matched? = answer at agrees
  cases agrees with
  | fails parses => exact ⟨_, parses⟩
  | found parses => exact ⟨_, parses⟩

/-- Where a matcher that mirrors a rule finds nothing, the rule fails. -/
theorem Mirrors.parses_of_none
    (mirrors : Mirrors (cs.length + 1) least p reads m)
    (fails : (m cs).matched? = none) :
    grammar.Parses p cs none := by
  have agrees := mirrors cs (Nat.lt_succ_self _)
  rw [fails] at agrees
  cases agrees with
  | fails parses => exact parses

/-- Where a matcher that mirrors a rule finds a value, the rule succeeds with trees for it. -/
theorem Mirrors.exists_parses_of_some
    (mirrors : Mirrors (cs.length + 1) least p reads m)
    {value : α}
    {rest : List Char}
    (matched : (m cs).matched? = some (value, rest)) :
    ∃ trees last, grammar.Parses p cs (some (trees, last)) ∧ reads value trees ∧
      skipLayout .between last = skipLayout .between rest := by
  have agrees := mirrors cs (Nat.lt_succ_self _)
  rw [matched] at agrees
  cases agrees with
  | found parses isRead same => exact ⟨_, _, parses, isRead, same⟩

end Decided

/-- What may stand behind the filters of a query. -/
def behindFilters : Peg Rule :=
  .spaced layout (.sequence
    [.optional (.rule .selectClause), .optional (.rule .orderClause),
      .optional (.rule .takeClause), .optional (chars ";"), .rule .endOfText])

/-- What may stand behind the word that a filter begins with. -/
def filterAndMore : Peg Rule :=
  .spaced layout (.sequence
    [.empty, .rule .expr, .many (.rule .whereClause), .optional (.rule .selectClause),
      .optional (.rule .orderClause), .optional (.rule .takeClause), .optional (chars ";"),
      .rule .endOfText])

/-- An expression with nothing but layout around it. -/
def loneExpr : Peg Rule :=
  .spaced layout (.sequence [.empty, .rule .expr, .rule .endOfText])

theorem behindFilters_eq :
    behindFilters =
      .seq (.optional (.rule .selectClause)) (.seq layout
        (.seq (.optional (.rule .orderClause)) (.seq layout
          (.seq (.optional (.rule .takeClause)) (.seq layout
            (.seq (.optional (chars ";")) (.seq layout (.rule .endOfText)))))))) :=
  rfl

/-- No clause behind the filters begins like a filter. -/
theorem not_parses_behindFilters
    (cs : List Char) :
    ¬ grammar.Parses behindFilters ("where ".toList ++ cs) (some found) := by
  have bare : skipLayout .between ("where ".toList ++ cs) = "where ".toList ++ cs :=
    skipLayout_sign rfl (by decide) (by decide)
  have noSelect := mirrors_selectClause.parses_of_none
    (rfl : (selectClause ("where ".toList ++ cs)).matched? = none)
  have noOrder := mirrors_orderClause.parses_of_none
    (rfl : (orderClause ("where ".toList ++ cs)).matched? = none)
  have noTake := mirrors_takeClause.parses_of_none
    (rfl : (takeClause ("where ".toList ++ cs)).matched? = none)
  have noSemicolon := (Mirrors.sign ';').parses_of_none
    (rfl : (sign ';' ("where ".toList ++ cs)).matched? = none)
  have goesOn := mirrors_endOfText.parses_of_none
    (rfl : (endOfText ("where ".toList ++ cs)).matched? = none)
  rw [behindFilters_eq, Parses.seq_iff_of_silent (.optional_of_fails noSelect),
    parses_layout_seq_iff, bare,
    Parses.seq_iff_of_silent (.optional_of_fails noOrder), parses_layout_seq_iff, bare,
    Parses.seq_iff_of_silent (.optional_of_fails noTake), parses_layout_seq_iff, bare,
    Parses.seq_iff_of_silent (.optional_of_fails noSemicolon), parses_layout_seq_iff, bare]
  exact fun parses => nomatch goesOn.unique parses

/-- The filters of a query and what stands behind them. -/
def filters : Peg Rule :=
  .seq (.optional (.seq (.rule .whereClause) (.many (.seq layout (.rule .whereClause)))))
    (.seq layout behindFilters)

theorem filterAndMore_eq :
    filterAndMore = .seq .empty (.seq layout (.seq (.rule .expr) (.seq layout filters))) :=
  rfl

/-- The word in front of a filter, and layout that leads to where the filter begins. -/
theorem exists_parses_where
    (cs : List Char) :
    ∃ word last, grammar.Parses (.rule (.keyword "where")) ("where ".toList ++ cs)
        (some ([.node (.keyword "where") word []], last)) ∧
      grammar.Parses layout last (some ([], skipLayout .between cs)) := by
  obtain ⟨_, last, parses, ⟨word, rfl, -⟩, same⟩ :=
    (mirrors_keyword "where" (by simp)).exists_parses_of_some
      (rfl : (keyword "where" ("where ".toList ++ cs)).matched? = some ((), ' ' :: cs))
  have between := parses_layout last
  rw [same] at between
  exact ⟨word, last, parses, between⟩

section Filter

variable {t : Tree Rule} {between rest : List Char} {trees : List (Tree Rule)}

/-- Without an expression there is no filter, and no other clause either. -/
theorem not_parses_filters
    (noExpr : grammar.Parses (.rule .expr) (skipLayout .between cs) none) :
    ¬ grammar.Parses filters ("where ".toList ++ cs) (some found) := by
  obtain ⟨word, last, isWord, space⟩ := exists_parses_where cs
  have bare : skipLayout .between ("where ".toList ++ cs) = "where ".toList ++ cs :=
    skipLayout_sign rfl (by decide) (by decide)
  have noFilter : grammar.Parses (.rule .whereClause) ("where ".toList ++ cs) none :=
    .ofInsideFails (.andThenFails isWord (.andThenFails space noExpr))
  rw [filters, Parses.seq_iff_of_silent (.optional_of_fails (.seqFails noFilter)),
    parses_layout_seq_iff, bare]
  exact not_parses_behindFilters cs

/-- A filter is an expression behind its word, and more filters may follow it. -/
theorem exists_parses_filters_iff
    (isExpr : grammar.Parses (.rule .expr) (skipLayout .between cs) (some ([t], between))) :
    ∃ covered word, ∀ trees rest,
      grammar.Parses filters ("where ".toList ++ cs) (some (trees, rest)) ↔
        ∃ others, grammar.Parses (.seq layout filters) between (some (others, rest)) ∧
          trees = .node .whereClause covered [.node (.keyword "where") word [], t] :: others := by
  obtain ⟨word, last, isWord, space⟩ := exists_parses_where cs
  obtain ⟨covered, isFilter⟩ : ∃ covered,
      grammar.Parses (.rule .whereClause) ("where ".toList ++ cs)
        (some ([.node .whereClause covered [.node (.keyword "where") word [], t]], between)) :=
    ⟨_, .ofInside (.andThen isWord (.andThen space isExpr))⟩
  refine ⟨covered, word, fun trees rest => ?_⟩
  simp only [filters, ← parses_repeated_iff mirrors_whereClause.exists_parses]
  simp only [Parses.seq_iff (p := .many _), Parses.seq_iff (p := .optional _),
    Parses.optional_iff_of_found isFilter, Parses.seq_iff_of_found isFilter]
  constructor
  · rintro ⟨_, rest', others, ⟨back, more, rfl⟩, behind, rfl⟩
    exact ⟨_, ⟨back, rest', others, more, behind, rfl⟩, rfl⟩
  · rintro ⟨_, ⟨back, rest', others, more, behind, rfl⟩, rfl⟩
    exact ⟨_, rest', others, ⟨back, more, rfl⟩, behind, rfl⟩

end Filter

theorem skipLayout_queryBefore
    (cs : List Char) :
    skipLayout .between (Expr.queryBefore.toList ++ cs) = Expr.queryBefore.toList ++ cs :=
  skipLayout_sign rfl (by decide) (by decide)

/-- The source of the query before an expression is read. -/
theorem matched?_queryBefore
    (cs : List Char) :
    (fromClause (Expr.queryBefore.toList ++ cs)).matched? =
      some (⟨"__", "__"⟩, " where ".toList ++ cs) := by
  have shape : Expr.queryBefore.toList ++ cs =
      "from ".toList ++ (Source.text ⟨"__", "__"⟩ ++ (" where ".toList ++ cs)) := rfl
  have isName : IsName "__" := by decide
  rw [shape]
  exact matched?_fromClause isName isName (Text.stops_cons.mpr rfl)

/-- The source of the wrapped text is matched, and its first filter comes next. -/
theorem exists_parses_query_iff
    (cs : List Char) :
    ∃ source, IntegersFit source ∧
      addClause none source = .ok (some { source := ⟨"__", "__"⟩ }) ∧
        ∀ trees, grammar.Parses (.rule .query) (Expr.queryBefore.toList ++ cs)
            (some (trees, [])) ↔
          ∃ others, grammar.Parses filters ("where ".toList ++ cs) (some (others, [])) ∧
            trees = [.node .query (Expr.queryBefore.toList ++ cs) (source :: others)] := by
  obtain ⟨_, last, isSource, ⟨source, rfl, fits, builds⟩, same⟩ :=
    mirrors_fromClause.exists_parses_of_some (matched?_queryBefore cs)
  have bare : skipLayout .between ("where ".toList ++ cs) = "where ".toList ++ cs :=
    skipLayout_sign rfl (by decide) (by decide)
  have behindSource : skipLayout .between last = "where ".toList ++ cs := same.trans bare
  have noJoin := mirrors_joinClause.parses_of_none
    (rfl : (joinClause ("where ".toList ++ cs)).matched? = none)
  refine ⟨source, fits, builds, fun trees => ?_⟩
  have inside : ∀ parts, grammar.Parses (grammar.inside .query) (Expr.queryBefore.toList ++ cs)
      (some (parts, [])) ↔
        ∃ others, grammar.Parses filters ("where ".toList ++ cs) (some (others, [])) ∧
          parts = source :: others := by
    intro parts
    change grammar.Parses (.seq .empty (.seq layout (.seq (.rule .fromClause) (.seq layout
      (.seq (.optional (.seq (.rule .joinClause) (.many (.seq layout (.rule .joinClause)))))
        (.seq layout filters)))))) _ _ ↔ _
    rw [Parses.seq_iff_of_silent .empty, parses_layout_seq_iff, skipLayout_queryBefore,
      Parses.seq_iff_of_found isSource]
    simp only [parses_layout_seq_iff, behindSource, bare,
      Parses.seq_iff_of_silent (.optional_of_fails (.seqFails noJoin)), List.singleton_append]
  have leaves : ∀ parts, grammar.trees .query
      ((Expr.queryBefore.toList ++ cs).take
        ((Expr.queryBefore.toList ++ cs).length - ([] : List Char).length)) parts =
          [.node .query (Expr.queryBefore.toList ++ cs) parts] := by
    intro parts
    rw [List.length_nil, Nat.sub_zero, List.take_length]
    rfl
  simp only [Parses.rule_iff, inside, leaves]
  constructor
  · rintro ⟨_, ⟨others, parses, rfl⟩, rfl⟩
    exact ⟨others, parses, rfl⟩
  · rintro ⟨others, parses, rfl⟩
    exact ⟨_, ⟨others, parses, rfl⟩, rfl⟩

/-- The tree of a query made of a filter behind `Expr.queryBefore` and of what follows it. -/
inductive Wraps (t : Tree Rule) (others : List (Tree Rule)) : List (Tree Rule) → Prop where
  | intro {whole covered word : List Char} {source : Tree Rule} :
      IntegersFit source →
        addClause none source = .ok (some { source := ⟨"__", "__"⟩ }) →
          Wraps t others
            [.node .query whole
              (source :: .node .whereClause covered [.node (.keyword "where") word [], t] ::
                others)]

variable {t : Tree Rule} {others trees : List (Tree Rule)} {rest : List Char} {query : Query}

/-- The integers of a wrapped expression are its own and those of what follows it. -/
theorem Wraps.integersFit_iff
    (wraps : Wraps t others trees) :
    AllIntegersFit trees ↔ AllIntegersFit (t :: others) := by
  obtain ⟨sourceFits, -⟩ := wraps
  simp [integersFit_node, sourceFits]

/-- Layout in front of a filter is skipped before it is parsed. -/
theorem parses_filterAndMore_iff :
    grammar.Parses filterAndMore cs (some found) ↔
      grammar.Parses (.seq (.rule .expr) (.seq layout filters)) (skipLayout .between cs)
        (some found) := by
  rw [filterAndMore_eq, Parses.seq_iff_of_silent .empty, parses_layout_seq_iff]

/-- A filter begins with an expression, which the matcher of expressions takes. -/
theorem exists_expr_of_filterAndMore
    (parses : grammar.Parses filterAndMore cs (some (trees, rest))) :
    ∃ t others reading between, trees = t :: others ∧
      (expr (skipLayout .between cs)).matched? = some (reading, between) ∧
        Settles (IntegersFit t) (exprOf t) reading := by
  rw [parses_filterAndMore_iff] at parses
  have agrees := mirrors_expr (skipLayout .between cs) (Nat.lt_succ_self _)
  generalize (expr (skipLayout .between cs)).matched? = answer at agrees
  cases agrees with
  | fails noExpr => exact absurd parses (Parses.not_seq_of_fails noExpr)
  | @found reading _ _ between isExpr isRead =>
      obtain ⟨t, rfl, -, settles⟩ := isRead
      obtain ⟨others, -, rfl⟩ := (Parses.seq_iff_of_found isExpr).mp parses
      exact ⟨t, others, reading, between, rfl, rfl, settles⟩

/-- The wrapped text is matched exactly if its own part is a filter and what may follow. -/
theorem parses_filterAndMore
    (text : String) :
    (∀ trees, Matches (Expr.queryBefore ++ text) trees →
      ∃ t others, grammar.Parses filterAndMore text.toList (some (t :: others, [])) ∧
        Wraps t others trees) ∧
    ∀ t others, grammar.Parses filterAndMore text.toList (some (t :: others, [])) →
      ∃ whole, Matches (Expr.queryBefore ++ text) whole ∧ Wraps t others whole := by
  obtain ⟨source, fits, builds, wholeIff⟩ := exists_parses_query_iff text.toList
  simp only [Matches, String.toList_append, wholeIff, parses_filterAndMore_iff]
  have agrees := mirrors_expr (skipLayout .between text.toList) (Nat.lt_succ_self _)
  generalize (expr (skipLayout .between text.toList)).matched? = answer at agrees
  cases agrees with
  | fails noExpr =>
      constructor
      · rintro trees ⟨others, parses, -⟩
        exact absurd parses (not_parses_filters noExpr)
      · intro t others parses
        exact absurd parses (Parses.not_seq_of_fails noExpr)
  | @found _ _ between _ isExpr isRead =>
      obtain ⟨t, rfl, -, -⟩ := isRead
      obtain ⟨covered, word, filtersIff⟩ := exists_parses_filters_iff isExpr
      simp only [Parses.seq_iff_of_found isExpr, filtersIff, List.singleton_append,
        List.cons.injEq]
      constructor
      · rintro _ ⟨_, ⟨others, parses, rfl⟩, rfl⟩
        exact ⟨t, others, ⟨others, parses, rfl, rfl⟩, .intro fits builds⟩
      · rintro _ others ⟨_, parses, rfl, rfl⟩
        exact ⟨_, ⟨_, ⟨others, parses, rfl⟩, rfl⟩, .intro fits builds⟩

section Reading

variable {m : Matcher α} {value : α} {values : List α} {between : List Char}

/-- What a part takes is the first of what its repetition takes. -/
theorem exists_matched?_many
    (first : (m cs).matched? = some (value, between)) :
    ∃ others rest, (m.many cs).matched? = some (value :: others, rest) := by
  obtain ⟨⟨others, rest⟩, more⟩ := exists_matched?_upTo m cs.length between
  exact ⟨others, rest, matched?_many_of_some first more⟩

theorem skipLayout_where
    (cs : List Char) :
    skipLayout .between (" where ".toList ++ cs) = "where ".toList ++ cs :=
  skipLayout_blank (opens_keyword "where" (by decide))

/-- What a filter takes behind its word is the expression there. -/
theorem matched?_filter
    (cs : List Char) :
    ((do Grammar.layout; whereClause : Matcher (Reading Expr)) (" where ".toList ++ cs)).matched? =
      (expr (skipLayout .between cs)).matched? := by
  have keyword : (keyword "where" ("where ".toList ++ cs)).matched? = some ((), ' ' :: cs) := rfl
  rw [matched?_bind_of_some matched?_layout, skipLayout_where, whereClause, matched?_rule,
    matched?_spaced_bind, keyword]
  rfl

/-- The first filter of the wrapped text is the expression that its own part begins with. -/
theorem exists_filters_of_query
    {reading : Reading Expr}
    (isExpr : (expr (skipLayout .between cs)).matched? = some (reading, between))
    (matched : (Grammar.query (Expr.queryBefore.toList ++ cs)).matched? =
      some (.ok query, rest)) :
    ∃ e more, reading = .ok e ∧ query.filters = e :: more := by
  obtain ⟨others, behind, filtersFound⟩ : ∃ others behind,
      (repeated whereClause (" where ".toList ++ cs)).matched? =
        some (reading :: others, behind) :=
    exists_matched?_many ((matched?_filter cs).trans isExpr)
  have noJoin : (repeated joinClause (" where ".toList ++ cs)).matched? =
      some ([], " where ".toList ++ cs) :=
    matched?_many_of_none rfl
  rw [Grammar.query, matched?_rule, matched?_bind_of_some matched?_layout,
    skipLayout_queryBefore, matched?_bind_of_some (matched?_queryBefore cs),
    matched?_bind_of_some noJoin, matched?_bind_of_some filtersFound] at matched
  simp only [matched?_bind, Option.bind_eq_some_iff] at matched
  obtain ⟨⟨projection, _⟩, -, ⟨ordering, _⟩, -, ⟨limit, _⟩, -, _, -, _, -, _, -, matched⟩ := matched
  rw [matched?_pure, Option.some.injEq, Prod.mk.injEq] at matched
  obtain ⟨built, -⟩ := matched
  obtain ⟨joins, -, built⟩ := Except.bind_eq_ok.mp built
  obtain ⟨filters, collected, built⟩ := Except.bind_eq_ok.mp built
  obtain ⟨exprs, -, built⟩ := Except.bind_eq_ok.mp built
  obtain ⟨keys, -, built⟩ := Except.bind_eq_ok.mp built
  have sameFilters : query.filters = filters := by
    cases limit with
    | none =>
        cases built
        rfl
    | some count =>
        obtain ⟨limit?, -, built⟩ := Except.bind_eq_ok.mp built
        cases built
        rfl
  rw [collect] at collected
  obtain ⟨e, isRead, collected⟩ := Except.bind_eq_ok.mp collected
  obtain ⟨more, -, collected⟩ := Except.bind_eq_ok.mp collected
  cases collected
  exact ⟨e, more, isRead, sameFilters⟩

end Reading

/-- The text is one expression, with nothing but layout around it. -/
def StandsAlone
    (text : String)
    (t : Tree Rule) :
    Prop :=
  grammar.Parses loneExpr text.toList (some ([t, .node .endOfText [] []], []))

/-- Behind a lone expression there is layout up to the end of the text. -/
theorem StandsAlone.exists_between
    {text : String}
    (alone : StandsAlone text t) :
    ∃ between, grammar.Parses (.rule .expr) (skipLayout .between text.toList)
        (some ([t], between)) ∧ skipLayout .between between = [] := by
  obtain ⟨front, between, back, isExpr, ended, same⟩ : ∃ front between back,
      grammar.Parses (.rule .expr) (skipLayout .between text.toList) (some (front, between)) ∧
        grammar.Parses (.seq layout (.rule .endOfText)) between (some (back, [])) ∧
          [t, .node .endOfText [] []] = front ++ back := by
    rw [← Parses.seq_iff, ← parses_layout_seq_iff]
    exact (Parses.seq_iff_of_silent .empty).mp alone
  rw [parses_layout_seq_iff] at ended
  obtain ⟨rest, atEnd⟩ : ∃ rest, skipLayout .between between = rest := ⟨_, rfl⟩
  rw [atEnd] at ended
  cases rest with
  | nil =>
      cases ended.unique parses_endOfText
      have parts : front ++ [Tree.node Rule.endOfText [] []] =
          [t] ++ [Tree.node Rule.endOfText [] []] :=
        same.symm
      obtain ⟨rfl, -⟩ := List.append_inj' parts rfl
      exact ⟨between, isExpr, atEnd⟩
  | cons c others => cases ended.unique not_parses_endOfText

/-- An expression with nothing but layout behind it stands alone. -/
theorem standsAlone_of_parses
    {text : String}
    {last : List Char}
    (isExpr : grammar.Parses (.rule .expr) (skipLayout .between text.toList) (some ([t], last)))
    (atEnd : skipLayout .between last = []) :
    StandsAlone text t := by
  have ended := parses_layout last
  rw [atEnd] at ended
  exact .andThen .empty (.andThen (parses_layout _) (.andThen isExpr
    (.andThen ended parses_endOfText)))

/-- A lone expression is a filter with nothing behind it. -/
theorem StandsAlone.filterAndMore
    {text : String}
    (alone : StandsAlone text t) :
    grammar.Parses filterAndMore text.toList (some ([t, .node .endOfText [] []], [])) := by
  obtain ⟨between, isExpr, atEnd⟩ := alone.exists_between
  have noFilter := mirrors_whereClause.parses_of_none
    (rfl : (whereClause []).matched? = none)
  have noSelect := mirrors_selectClause.parses_of_none
    (rfl : (selectClause []).matched? = none)
  have noOrder := mirrors_orderClause.parses_of_none
    (rfl : (orderClause []).matched? = none)
  have noTake := mirrors_takeClause.parses_of_none
    (rfl : (takeClause []).matched? = none)
  have noSemicolon := (Mirrors.sign ';').parses_of_none
    (rfl : (sign ';' []).matched? = none)
  have bare : skipLayout .between [] = [] := rfl
  have behind : grammar.Parses behindFilters [] (some ([.node .endOfText [] []], [])) := by
    rw [behindFilters_eq, Parses.seq_iff_of_silent (.optional_of_fails noSelect),
      parses_layout_seq_iff, bare, Parses.seq_iff_of_silent (.optional_of_fails noOrder),
      parses_layout_seq_iff, bare, Parses.seq_iff_of_silent (.optional_of_fails noTake),
      parses_layout_seq_iff, bare, Parses.seq_iff_of_silent (.optional_of_fails noSemicolon),
      parses_layout_seq_iff, bare]
    exact parses_endOfText
  rw [parses_filterAndMore_iff, Parses.seq_iff_of_found isExpr]
  refine ⟨_, ?_, rfl⟩
  rw [parses_layout_seq_iff, atEnd, filters,
    Parses.seq_iff_of_silent (.optional_of_fails (.seqFails noFilter)), parses_layout_seq_iff, bare]
  exact behind

/-- The expression in front is the first filter of the query that is read. -/
theorem filters_of_parse
    {text : String}
    {reading : Reading Expr}
    {between : List Char}
    (isExpr : (expr (skipLayout .between text.toList)).matched? = some (reading, between))
    (parsed : Query.parse (Expr.queryBefore ++ text) = .ok query) :
    ∃ e more, reading = .ok e ∧ query.filters = e :: more := by
  obtain ⟨rest, matched⟩ := parse_eq_ok_iff.mp parsed
  rw [String.toList_append] at matched
  exact exists_filters_of_query isExpr matched

/-- What is read is the expression that the text begins with. -/
theorem exists_expr_of_parse
    {text : String}
    {e : Expr}
    (parsed : Expr.parse text = .ok e) :
    ∃ between, (expr (skipLayout .between text.toList)).matched? = some (.ok e, between) := by
  obtain ⟨query, parsedQuery, isFirst⟩ := Except.bind_eq_ok.mp parsed
  obtain ⟨whole, matched⟩ := exists_matches_of_parse parsedQuery
  obtain ⟨_, _, parses, -⟩ := (parses_filterAndMore text).1 whole matched
  obtain ⟨_, _, reading, between, -, isExpr, -⟩ := exists_expr_of_filterAndMore parses
  obtain ⟨e', more, rfl, shape⟩ := filters_of_parse isExpr parsedQuery
  rw [shape] at isFirst
  cases isFirst
  exact ⟨between, isExpr⟩

/-- The expression read is the one that the text begins with, if all integers fit. -/
theorem parse_eq_ok_iff_of_filterAndMore
    {text : String}
    (parses : grammar.Parses filterAndMore text.toList (some (t :: others, [])))
    (e : Expr) :
    Expr.parse text = .ok e ↔ AllIntegersFit (t :: others) ∧ exprOf t = .ok e := by
  obtain ⟨whole, matched, wraps⟩ := (parses_filterAndMore text).2 t others parses
  obtain ⟨_, _, reading, between, same, isExpr, settles⟩ := exists_expr_of_filterAndMore parses
  cases same
  obtain ⟨wholeReading, wholeSettles, isParsed⟩ := exists_reading_of_matches matched
  constructor
  · intro parsed
    obtain ⟨query, parsedQuery, -⟩ := Except.bind_eq_ok.mp parsed
    obtain ⟨_, parsedExpr⟩ := exists_expr_of_parse parsed
    cases isExpr.symm.trans parsedExpr
    refine ⟨wraps.integersFit_iff.mp ?_, (settles.iff_ok.mp rfl).2⟩
    exact (wholeSettles.iff_ok.mp ((isParsed query).mp parsedQuery)).1
  · rintro ⟨fits, built⟩
    obtain ⟨query, isQuery⟩ := wholeSettles.exists_ok (wraps.integersFit_iff.mpr fits)
    have parsedQuery := (isParsed query).mpr
      (wholeSettles.iff_ok.mpr ⟨wraps.integersFit_iff.mpr fits, isQuery⟩)
    obtain ⟨e', more, rfl, shape⟩ := filters_of_parse isExpr parsedQuery
    cases (settles.iff_ok.mp rfl).2.symm.trans built
    refine Except.bind_eq_ok.mpr ⟨query, parsedQuery, ?_⟩
    rw [shape]

/-- An expression with only layout around it is read. -/
theorem parse_of_expr
    {text : String}
    {e : Expr}
    (isExpr : (expr (skipLayout .between text.toList)).matched? = some (.ok e, rest))
    (atEnd : skipLayout .between rest = []) :
    Expr.parse text = .ok e := by
  obtain ⟨_, last, parses, ⟨t, rfl, -, settles⟩, same⟩ := mirrors_expr.exists_parses_of_some isExpr
  obtain ⟨fits, built⟩ := settles.iff_ok.mp rfl
  have alone := standsAlone_of_parses parses (same.trans atEnd)
  refine (parse_eq_ok_iff_of_filterAndMore alone.filterAndMore e).mpr ⟨?_, built⟩
  simp [fits, integersFit_leaf]

/--
A text is read as an expression exactly if it is one expression with what may stand
behind the filters of a query behind it, and all integers fit.  What is read is that one
expression: other filters, a projection, an ordering, a limit and a semicolon have to be
right, and are left out.  A text that is one expression with only layout around it is
read as all of it.
-/
theorem parse_eq_ok_iff_filterAndMore
    (text : String) :
    (∀ e, Expr.parse text = .ok e ↔
      ∃ t others, grammar.Parses filterAndMore text.toList (some (t :: others, [])) ∧
        AllIntegersFit (t :: others) ∧ exprOf t = .ok e) ∧
    (∀ t others, grammar.Parses filterAndMore text.toList (some (t :: others, [])) →
      AllIntegersFit (t :: others) → ∃ e, Expr.parse text = .ok e) ∧
    ∀ t, StandsAlone text t →
      ((∃ e, Expr.parse text = .ok e) ↔ IntegersFit t) ∧
        ∀ e, Expr.parse text = .ok e ↔ IntegersFit t ∧ exprOf t = .ok e := by
  have reads : ∀ t others, grammar.Parses filterAndMore text.toList (some (t :: others, [])) →
      AllIntegersFit (t :: others) → ∃ e, Expr.parse text = .ok e := by
    intro t others parses fits
    obtain ⟨_, _, _, _, same, -, settles⟩ := exists_expr_of_filterAndMore parses
    cases same
    obtain ⟨e, built⟩ := settles.exists_ok fits.1
    exact ⟨e, (parse_eq_ok_iff_of_filterAndMore parses e).mpr ⟨fits, built⟩⟩
  refine ⟨fun e => ⟨fun parsed => ?_, ?_⟩, reads, fun t alone => ?_⟩
  · obtain ⟨query, parsedQuery, -⟩ := Except.bind_eq_ok.mp parsed
    obtain ⟨whole, matched⟩ := exists_matches_of_parse parsedQuery
    obtain ⟨t, others, parses, -⟩ := (parses_filterAndMore text).1 whole matched
    exact ⟨t, others, parses, (parse_eq_ok_iff_of_filterAndMore parses e).mp parsed⟩
  · rintro ⟨t, others, parses, fits⟩
    exact (parse_eq_ok_iff_of_filterAndMore parses e).mpr fits
  · have parses := alone.filterAndMore
    have fits : AllIntegersFit [t, .node .endOfText [] []] ↔ IntegersFit t := by
      simp [integersFit_leaf]
    have iff := parse_eq_ok_iff_of_filterAndMore parses
    simp only [fits] at iff
    exact ⟨⟨fun ⟨e, parsed⟩ => ((iff e).mp parsed).1,
      fun holds => reads t _ parses (fits.mpr holds)⟩, iff⟩

theorem exists_standsAlone_behindComment :
    ∃ t, StandsAlone "/* first */ not c.A = 1 -- last" t ∧ IntegersFit t ∧
      exprOf t = .ok (.not (.compare (.member "c" "A") .eq (.literal (.integer 1)))) := by
  have isExpr : (expr (skipLayout .between "/* first */ not c.A = 1 -- last".toList)).matched? =
      some (.ok (.not (.compare (.member "c" "A") .eq (.literal (.integer 1)))),
        " -- last".toList) := by
    decide +kernel
  obtain ⟨_, last, parses, ⟨t, rfl, -⟩, same⟩ := mirrors_expr.exists_parses_of_some isExpr
  have atEnd : skipLayout .between last = [] := same.trans (by decide +kernel)
  have alone : StandsAlone "/* first */ not c.A = 1 -- last" t :=
    standsAlone_of_parses parses atEnd
  refine ⟨t, alone, ?_⟩
  exact (((parse_eq_ok_iff_filterAndMore _).2.2 t alone).2 _).mp (by decide +kernel)

/-- A projection behind the expression is taken and left out. -/
theorem exists_parse_of_more :
    Expr.parse "c.A = 1 select c.B" = .ok (.compare (.member "c" "A") .eq (.literal (.integer 1))) ∧
      ∀ t, ¬ StandsAlone "c.A = 1 select c.B" t := by
  refine ⟨by decide +kernel, fun t alone => ?_⟩
  have isExpr : (expr (skipLayout .between "c.A = 1 select c.B".toList)).matched? =
      some (.ok (.compare (.member "c" "A") .eq (.literal (.integer 1))),
        " select c.B".toList) := by
    decide +kernel
  obtain ⟨_, last, parses, -, same⟩ := mirrors_expr.exists_parses_of_some isExpr
  obtain ⟨between, parsesAlone, atEnd⟩ := alone.exists_between
  cases parses.unique parsesAlone
  exact absurd (same.symm.trans atEnd) (by decide +kernel)

end Syntax

end FullTextQuery
