import FullTextQuery.Proofs.Query.CanonicalExpressions
import FullTextQuery.Proofs.Query.ParsedNames

namespace FullTextQuery.Query

/-!
# Canonical texts of queries

Clauses stand in the order of the grammar, so that behind each clause there is
nothing or one of the clauses after it, and no clause takes anything of another.  A
query is therefore read back from each of its canonical texts, and no two queries
have one in common.
-/

open Matcher Grammar

variable {α : Type} {rest : List Char}

/-- The words that clauses behind the sources begin with. -/
def clauseWords : List String :=
  ["join", "where", "select", "order", "take"]

/-- Whether a text is at its end or goes on with a clause of some words. -/
def GoesOn
    (words : List String)
    (rest : List Char) :
    Prop :=
  rest = [] ∨ ∃ word ∈ words, ∃ more, rest = ' ' :: (word.toList ++ ' ' :: more)

/-- A query that goes on with some words goes on with more words. -/
theorem GoesOn.mono
    {words more : List String}
    (goesOn : GoesOn words rest)
    (subset : words ⊆ more) :
    GoesOn more rest :=
  goesOn.imp id fun ⟨word, member, found⟩ => ⟨word, subset member, found⟩

/-- An expression ends in front of a clause. -/
theorem GoesOn.endsExpr
    (goesOn : GoesOn clauseWords rest) :
    EndsExpr rest := by
  rcases goesOn with rfl | ⟨word, member, more, rfl⟩
  · exact ⟨⟨⟨⟨Text.stops_nil, Text.stops_nil⟩, rfl⟩, rfl⟩, rfl⟩
  · simp only [clauseWords, List.mem_cons, List.not_mem_nil, or_false] at member
    rcases member with rfl | rfl | rfl | rfl | rfl <;>
      exact ⟨⟨⟨⟨Text.stops_cons.mpr rfl, Text.stops_cons.mpr rfl⟩, rfl⟩, rfl⟩, rfl⟩

/-- A clause that is not there is not matched. -/
theorem GoesOn.noKeyword
    {words : List String}
    (goesOn : GoesOn words rest)
    {word : String}
    (isClause : word ∈ clauseWords)
    (subset : words ⊆ clauseWords)
    (other : word ∉ words) :
    (keyword word (skipLayout .between rest)).matched? = none := by
  rw [keyword, matched?_token]
  rcases goesOn with rfl | ⟨found, member, more, rfl⟩
  · simp only [clauseWords, List.mem_cons, List.not_mem_nil, or_false] at isClause
    rcases isClause with rfl | rfl | rfl | rfl | rfl <;> rfl
  · have different : found ≠ word := fun same => other (same ▸ member)
    have foundClause := subset member
    simp only [clauseWords, List.mem_cons, List.not_mem_nil, or_false] at isClause foundClause
    rcases isClause with rfl | rfl | rfl | rfl | rfl <;>
      rcases foundClause with rfl | rfl | rfl | rfl | rfl <;>
        first
        | exact absurd rfl different
        | rfl

/-- A keyword is a unit. -/
theorem opens_keyword
    (word : String)
    (reserved : word.toList ∈ reservedWords) :
    Opens (word.toList ++ rest) := by
  have opens : ∀ word ∈ reservedWords, ∃ c others, word = c :: others ∧ isNameStart c = true := by
    simp [reservedWords, isNameStart]
  obtain ⟨c, others, shape, start⟩ := opens _ reserved
  rw [shape]
  exact .ofKind start rfl

/-- A name behind a blank ends in front of a blank. -/
theorem matched?_spaced_name
    {name : String}
    (proper : IsName name)
    (opens : Opens rest)
    (next : String → Matcher α) :
    ((spaced Grammar.name >>= next) (name.toList ++ ' ' :: rest)).matched? =
      (next name rest).matched? := by
  rw [matched?_spaced_bind, Grammar.name, matched?_token,
    proper.scanName? (Text.stops_cons.mpr rfl), Option.bind_some, skipLayout_blank opens]

/-- A keyword ends in front of a blank. -/
theorem matched?_spaced_keyword
    {word : String}
    (isWord : scanWord? word.toList (word.toList ++ ' ' :: rest) = some ((), ' ' :: rest))
    (opens : Opens rest)
    (next : Unit → Matcher α) :
    ((spaced (keyword word) >>= next) (word.toList ++ ' ' :: rest)).matched? =
      (next () rest).matched? := by
  rw [matched?_spaced_bind, keyword, matched?_token, isWord, Option.bind_some,
    skipLayout_blank opens]

/-- An expression that stands alone is read wherever it ends. -/
theorem matched?_expr
    {e : Expr}
    {text : List Char}
    (back : ReadBack e text)
    (ends : EndsExpr rest) :
    (expr (text ++ rest)).matched? = some (.ok e, rest) :=
  back.expr.nested (nests_expr _) rest ends (Nat.lt_succ_self _)

/-- What is read back as an expression is read back as an operand of a query. -/
theorem matched?_operand_expr
    {e : Expr}
    {text : List Char}
    (back : ReadBack e text)
    (ends : EndsOperand rest) :
    (operand expr (e.operandText text ++ rest)).matched? = some (.ok e, rest) :=
  back.operand (nests_expr _) rest ends (Nat.lt_succ_self _)

/-- A source is the names of its item and its entity with `in` between them. -/
theorem Source.text_append
    (source : Source) :
    source.text ++ rest =
      source.item.toList ++ ' ' :: ("in".toList ++ ' ' :: (source.entity.toList ++ rest)) := by
  simp [Source.text]

/-- The text of a source is read as this source. -/
theorem matched?_fromClause
    {source : Source}
    (itemProper : IsName source.item)
    (entityProper : IsName source.entity)
    (stops : Text.Stops isNameChar rest) :
    (fromClause ("from ".toList ++ (source.text ++ rest))).matched? = some (source, rest) := by
  have opens := itemProper.opens.append
    (' ' :: ("in".toList ++ ' ' :: (source.entity.toList ++ rest)))
  rw [Source.text_append, fromClause, matched?_rule]
  refine (matched?_spaced_keyword rfl opens _).trans ?_
  rw [matched?_spaced_name itemProper (opens_keyword "in" (by decide)),
    matched?_spaced_keyword rfl (entityProper.opens.append _), matched?_bind, Grammar.name,
    matched?_token, entityProper.scanName? stops, Option.bind_some, matched?_pure]

section Clauses

/-- Whether all that a join is made of can be written. -/
structure NamedJoin
    (join : Join) :
    Prop where
  item : IsName join.source.item
  entity : IsName join.source.entity
  left : join.left.Named
  right : join.right.Named

/-- The names in a join of a query are identifiers. -/
theorem Named.join
    {query : Query}
    (named : query.Named)
    {join : Join}
    (member : join ∈ query.joins) :
    NamedJoin join := by
  have inSources := named.sources join.source
    (List.mem_cons_of_mem _ (List.mem_map_of_mem member))
  have inExpressions : ∀ e ∈ [join.left, join.right], e ∈ query.expressions := by
    intro e side
    simp only [Query.expressions, List.mem_append, List.mem_flatMap]
    exact .inl (.inl (.inr ⟨join, member, side⟩))
  exact {
    item := inSources.1
    entity := inSources.2
    left := named.expressions _ (inExpressions _ (by simp))
    right := named.expressions _ (inExpressions _ (by simp)) }

/-- The text of a join is read as this join. -/
theorem matched?_joinClause
    {join : Join}
    {text : List Char}
    (spells : join.Spells text)
    (named : NamedJoin join)
    (goesOn : GoesOn clauseWords rest) :
    ((do layout; joinClause : Matcher (Reading Join)) (text ++ rest)).matched? =
      some (.ok join, rest) := by
  obtain ⟨leftSpells, rightSpells⟩ := spells
  rename_i leftText rightText
  have left := readBack_of_spells leftSpells named.left
  have right := readBack_of_spells rightSpells named.right
  have shape : " join ".toList ++ (join.source.text ++ (" on ".toList ++
      (join.left.operandText leftText ++ (" = ".toList ++ join.right.operandText rightText)))) ++
        rest =
      ' ' :: ("join".toList ++ ' ' :: (join.source.item.toList ++ ' ' :: ("in".toList ++ ' ' ::
        (join.source.entity.toList ++ ' ' :: ("on".toList ++ ' ' ::
          (join.left.operandText leftText ++ ' ' :: '=' :: ' ' ::
            (join.right.operandText rightText ++ rest))))))) := by
    simp [Source.text]
  have leftEnds : EndsOperand
      (' ' :: '=' :: ' ' :: (join.right.operandText rightText ++ rest)) :=
    ⟨Text.stops_cons.mpr rfl, Text.stops_cons.mpr rfl⟩
  rw [shape, matched?_bind_of_some matched?_layout,
    skipLayout_blank (opens_keyword "join" (by decide)), joinClause, matched?_rule,
    matched?_spaced_keyword rfl (named.item.opens.append _),
    matched?_spaced_name named.item (opens_keyword "in" (by decide)),
    matched?_spaced_keyword rfl (named.entity.opens.append _),
    matched?_spaced_name named.entity (opens_keyword "on" (by decide)),
    matched?_spaced_keyword rfl (left.operandOpens.append _), matched?_spaced_bind,
    matched?_operand_expr left leftEnds, Option.bind_some,
    skipLayout_blank (.visible rfl (by decide) (by decide)), matched?_spaced_bind,
    matched?_sign_self, Option.bind_some, skipLayout_blank (right.operandOpens.append _),
    matched?_bind_of_some (matched?_operand_expr right goesOn.endsExpr.toEndsOperand),
    matched?_pure]
  rfl

/-- The text of a filter is read as this filter. -/
theorem matched?_whereClause
    {predicate : Expr}
    {text : List Char}
    (spells : SpellsFilter predicate text)
    (named : predicate.Named)
    (goesOn : GoesOn clauseWords rest) :
    ((do layout; whereClause : Matcher (Reading Expr)) (text ++ rest)).matched? =
      some (.ok predicate, rest) := by
  obtain ⟨predicateSpells⟩ := spells
  rename_i predicateText
  have back := readBack_of_spells predicateSpells named
  have shape : " where ".toList ++ predicateText ++ rest =
      ' ' :: ("where".toList ++ ' ' :: (predicateText ++ rest)) := by
    simp
  rw [shape, matched?_bind_of_some matched?_layout,
    skipLayout_blank (opens_keyword "where" (by decide)), whereClause, matched?_rule,
    matched?_spaced_keyword rfl (back.opens.append _),
    matched?_expr back goesOn.endsExpr]

/-- No comma is in front of a clause. -/
theorem GoesOn.noComma
    (goesOn : GoesOn clauseWords rest) :
    Text.Stops (· == ',') (skipLayout .between rest) := by
  rcases goesOn with rfl | ⟨word, member, more, rfl⟩
  · exact Text.stops_nil
  · simp only [clauseWords, List.mem_cons, List.not_mem_nil, or_false] at member
    rcases member with rfl | rfl | rfl | rfl | rfl <;> exact Text.stops_cons.mpr rfl

/-- Some parts with commas between them are collected. -/
theorem matched?_collected
    {part : Matcher (Reading α)}
    {values : List α}
    {texts : List (List Char)}
    (notEmpty : texts ≠ [])
    (each : List.Forall₂ (fun value text => Opens text ∧
      ∀ limit, Reads part EndsExpr limit (.ok value) text) values texts)
    (goesOn : GoesOn clauseWords rest) :
    ((separated part >>= fun found => pure (collect found) : Matcher (Reading (List α)))
      (Expr.commaText texts ++ rest)).matched? = some (.ok values, rest) := by
  have someValue : (values.map Except.ok : List (Reading α)) ≠ [] := by
    cases each with
    | nil => exact absurd rfl notEmpty
    | cons => simp
  have readings : List.Forall₂ (fun reading text => Opens text ∧
      Reads part EndsExpr ((Expr.commaText texts ++ rest).length + 1) reading text)
        (values.map .ok) texts :=
    List.forall₂_map_left_iff.mpr (each.imp fun _ _ reads => ⟨reads.1, reads.2 _⟩)
  have found := matched?_separated someValue readings (fun _ => endsExpr_sign (.inr rfl))
    goesOn.endsExpr goesOn.noComma (Nat.lt_succ_self _)
  rw [matched?_bind_of_some found, matched?_pure, collect_ok]

/-- The texts of result expressions are read as these expressions. -/
theorem matched?_selectClause
    {projection : List Expr}
    {texts : List (List Char)}
    (notEmpty : texts ≠ [])
    (each : List.Forall₂ ReadBack projection texts)
    (goesOn : GoesOn clauseWords rest) :
    ((do layout; selectClause : Matcher (Reading (List Expr)))
      (" select ".toList ++ Expr.commaText texts ++ rest)).matched? =
        some (.ok projection, rest) := by
  have opens : Opens (Expr.commaText texts) := by
    cases each with
    | nil => exact absurd rfl notEmpty
    | cons first _ =>
        rw [commaText_cons]
        exact first.opens.append _
  have shape : " select ".toList ++ Expr.commaText texts ++ rest =
      ' ' :: ("select".toList ++ ' ' :: (Expr.commaText texts ++ rest)) := by
    simp
  rw [shape, matched?_bind_of_some matched?_layout,
    skipLayout_blank (opens_keyword "select" (by decide)), selectClause, matched?_rule,
    matched?_spaced_keyword rfl (opens.append _)]
  exact matched?_collected notEmpty
    (each.imp fun _ _ back => ⟨back.opens, fun _ => back.expr.nested (nests_expr _)⟩) goesOn

/-- A sort key is read with its direction. -/
theorem reads_sortKey
    {key : SortKey}
    {text : List Char}
    (spells : key.Spells text)
    (named : key.expr.Named) :
    Opens text ∧ ∀ limit, Reads sortKey EndsExpr limit (.ok key) text := by
  obtain ⟨exprSpells⟩ := spells
  rename_i exprText
  have back := readBack_of_spells exprSpells named
  refine ⟨back.opens.append _, fun limit rest ends short => ?_⟩
  obtain ⟨e, descending⟩ := key
  rw [List.append_assoc, sortKey, matched?_rule]
  cases descending with
  | true =>
      have endsHere : EndsExpr (" desc".toList ++ rest) :=
        ⟨⟨⟨⟨Text.stops_cons.mpr rfl, Text.stops_cons.mpr rfl⟩, rfl⟩, rfl⟩, rfl⟩
      have found : ((do layout; direction : Matcher Bool) (" desc".toList ++ rest)).matched? =
          some (true, rest) := by
        have noAsc : afterWord? "asc".toList ("desc".toList ++ rest) = none := rfl
        have isDesc : scanWord? "desc".toList ("desc".toList ++ rest) = some ((), rest) :=
          scanWord?_eq_some_iff.mpr ⟨"desc".toList, rfl, by decide, ends.noName⟩
        rw [matched?_bind_of_some matched?_layout]
        show (direction ("desc".toList ++ rest)).matched? = _
        rw [direction, matched?_token, noAsc, isDesc]
        rfl
      rw [if_pos rfl, matched?_bind_of_some (matched?_expr back endsHere),
        matched?_bind_of_some (matched?_optional_of_some found), matched?_pure]
      rfl
  | false =>
      have endsHere : EndsExpr (" asc".toList ++ rest) :=
        ⟨⟨⟨⟨Text.stops_cons.mpr rfl, Text.stops_cons.mpr rfl⟩, rfl⟩, rfl⟩, rfl⟩
      have found : ((do layout; direction : Matcher Bool) (" asc".toList ++ rest)).matched? =
          some (false, rest) := by
        have isAsc : afterWord? "asc".toList ("asc".toList ++ rest) = some rest := rfl
        rw [matched?_bind_of_some matched?_layout]
        show (direction ("asc".toList ++ rest)).matched? = _
        rw [direction, matched?_token, isAsc]
        simp [continuesName_eq_false_iff.mpr ends.noName]
      rw [if_neg (by simp), matched?_bind_of_some (matched?_expr back endsHere),
        matched?_bind_of_some (matched?_optional_of_some found), matched?_pure]
      rfl

/-- The texts of sort keys are read as these keys. -/
theorem matched?_orderClause
    {ordering : List SortKey}
    {texts : List (List Char)}
    (notEmpty : texts ≠ [])
    (each : List.Forall₂ (fun key text => key.Spells text ∧ key.expr.Named) ordering texts)
    (goesOn : GoesOn clauseWords rest) :
    ((do layout; orderClause : Matcher (Reading (List SortKey)))
      (" order by ".toList ++ Expr.commaText texts ++ rest)).matched? =
        some (.ok ordering, rest) := by
  have readings := each.imp fun _ _ spelled => reads_sortKey spelled.1 spelled.2
  have opens : Opens (Expr.commaText texts) := by
    cases readings with
    | nil => exact absurd rfl notEmpty
    | cons first _ =>
        rw [commaText_cons]
        exact first.1.append _
  have shape : " order by ".toList ++ Expr.commaText texts ++ rest =
      ' ' :: ("order".toList ++ ' ' :: ("by".toList ++ ' ' :: (Expr.commaText texts ++ rest))) := by
    simp
  rw [shape, matched?_bind_of_some matched?_layout,
    skipLayout_blank (opens_keyword "order" (by decide)), orderClause, matched?_rule,
    matched?_spaced_keyword rfl (opens_keyword "by" (by decide)),
    matched?_spaced_keyword rfl (opens.append _)]
  exact matched?_collected notEmpty readings goesOn

/-- The digits of a limit are read as this limit. -/
theorem matched?_takeClause
    (count : UInt64) :
    ((do layout; takeClause : Matcher (Reading UInt64))
      (" take ".toList ++ Decimal.digits count.toNat)).matched? = some (.ok count, []) := by
  have proper := isDigits_digits count.toNat
  have opens : Opens (Decimal.digits count.toNat) := opens_minus false proper
  have shape : " take ".toList ++ Decimal.digits count.toNat =
      ' ' :: ("take".toList ++ ' ' :: Decimal.digits count.toNat) := by
    simp
  have scanned : scanInteger? (Decimal.digits count.toNat) =
      some (Decimal.digits count.toNat, []) :=
    scanInteger?_eq_some_iff.mpr ⟨false, _, rfl, proper, by simp, Text.stops_nil⟩
  have fits : Decimal.below? UInt64.size (Decimal.digits count.toNat) = some count.toNat := by
    rw [Decimal.below?.eq_2 _ _ (digits_ne_sign proper (by decide)), natural?_eq proper,
      Decimal.ofDigits_digits, Option.filter_some, if_pos (by simp [count.toNat_lt_size])]
  rw [shape, matched?_bind_of_some matched?_layout,
    skipLayout_blank (opens_keyword "take" (by decide)), takeClause, matched?_rule,
    matched?_spaced_keyword rfl opens, matched?_bind_of_some matched?_left, matched?_bind,
    matched?_token, scanned, Option.bind_some, fits]
  simp

end Clauses

section Whole

variable {texts : List (List Char)}

/-- A clause of some words, or what follows it. -/
theorem GoesOn.ofClause
    {word : String}
    {words : List String}
    {opening : String}
    (isOpening : ∃ more, opening.toList = ' ' :: (word.toList ++ ' ' :: more))
    (goesOn : GoesOn words rest) :
    GoesOn (word :: words) (listClauseText opening texts ++ rest) := by
  unfold listClauseText
  split
  · exact goesOn.mono (by simp)
  · obtain ⟨more, shape⟩ := isOpening
    exact .inr ⟨word, by simp, more ++ (Expr.commaText texts ++ rest), by simp [shape]⟩

/-- Joins, or what follows them. -/
theorem GoesOn.ofJoins
    {words : List String}
    {joins : List Join}
    (goesOn : GoesOn words rest)
    (spells : List.Forall₂ Join.Spells joins texts) :
    GoesOn ("join" :: words) (texts.flatten ++ rest) := by
  cases spells with
  | nil => exact goesOn.mono (by simp)
  | cons first _ =>
      obtain ⟨_, _⟩ := first
      exact .inr ⟨"join", by simp, _, rfl⟩

/-- Filters, or what follows them. -/
theorem GoesOn.ofFilters
    {words : List String}
    {filters : List Expr}
    (goesOn : GoesOn words rest)
    (spells : List.Forall₂ SpellsFilter filters texts) :
    GoesOn ("where" :: words) (texts.flatten ++ rest) := by
  cases spells with
  | nil => exact goesOn.mono (by simp)
  | cons first _ =>
      obtain ⟨_⟩ := first
      exact .inr ⟨"where", by simp, _, rfl⟩

/-- Before a limit, or none, a query goes on or ends. -/
theorem goesOn_limitText
    (limit? : Option UInt64) :
    GoesOn ["take"] (limitText limit?) := by
  cases limit? with
  | none => exact .inl rfl
  | some count => exact .inr ⟨"take", by simp, Decimal.digits count.toNat, rfl⟩

/-- A clause that is not there is left out. -/
theorem GoesOn.absent
    {words : List String}
    (goesOn : GoesOn words rest)
    {word : String}
    (isClause : word ∈ clauseWords)
    (subset : words ⊆ clauseWords)
    (other : word ∉ words)
    (next : Unit → Matcher α) :
    ((do layout; (rule (spaced (keyword word) >>= next)) : Matcher α) rest).matched? = none := by
  rw [matched?_bind_of_some matched?_layout, matched?_rule, matched?_spaced_bind,
    goesOn.noKeyword isClause subset other, Option.bind_none]

/-- A clause of some parts stands there exactly if there are parts. -/
theorem exists_possibly_listClause
    {part : Matcher (Reading (List α))}
    {opening : String}
    {values : List α}
    {relation : α → List Char → Prop}
    (each : List.Forall₂ relation values texts)
    (absent : ((do layout; part : Matcher (Reading (List α))) rest).matched? = none)
    (present : texts ≠ [] →
      ((do layout; part : Matcher (Reading (List α)))
        (opening.toList ++ Expr.commaText texts ++ rest)).matched? = some (.ok values, rest)) :
    ∃ found, (possibly part (listClauseText opening texts ++ rest)).matched? =
      some (found, rest) ∧ found.getD (.ok []) = .ok values := by
  cases each with
  | nil => exact ⟨none, matched?_optional_of_none absent, rfl⟩
  | cons => exact ⟨some (.ok _), matched?_optional_of_some (present (by simp)), rfl⟩

/-- All joins are read, and nothing behind them. -/
theorem matched?_joins
    {joins : List Join}
    (spells : List.Forall₂ Join.Spells joins texts)
    (named : ∀ join ∈ joins, NamedJoin join)
    (goesOn : GoesOn ["where", "select", "order", "take"] rest) :
    (repeated joinClause (texts.flatten ++ rest)).matched? = some (joins.map .ok, rest) := by
  have each : List.Forall₂
      (ReadsNext (do layout; joinClause) (GoesOn clauseWords) ((texts.flatten ++ rest).length + 1))
      (joins.map .ok) texts := by
    rw [List.forall₂_map_left_iff]
    refine ((List.forall₂_and_left _ _).mpr ⟨named, spells⟩).imp
      fun join text ⟨joinNamed, spelled⟩ =>
        ⟨fun more ends _ => matched?_joinClause spelled joinNamed ends, fun more => ?_, ?_⟩
    · obtain ⟨_, _⟩ := spelled
      exact .inr ⟨"join", by simp [clauseWords], _, rfl⟩
    · obtain ⟨_, _⟩ := spelled
      simp
  refine matched?_many_texts each (goesOn.mono (by simp [clauseWords])) ?_ (Nat.lt_succ_self _)
  exact goesOn.absent (by simp [clauseWords]) (by simp [clauseWords]) (by simp) _

/-- All filters are read, and nothing behind them. -/
theorem matched?_filters
    {filters : List Expr}
    (spells : List.Forall₂ SpellsFilter filters texts)
    (named : ∀ predicate ∈ filters, predicate.Named)
    (goesOn : GoesOn ["select", "order", "take"] rest) :
    (repeated whereClause (texts.flatten ++ rest)).matched? = some (filters.map .ok, rest) := by
  have each : List.Forall₂
      (ReadsNext (do layout; whereClause) (GoesOn clauseWords)
        ((texts.flatten ++ rest).length + 1))
      (filters.map .ok) texts := by
    rw [List.forall₂_map_left_iff]
    refine ((List.forall₂_and_left _ _).mpr ⟨named, spells⟩).imp
      fun predicate text ⟨predicateNamed, spelled⟩ =>
        ⟨fun more ends _ => matched?_whereClause spelled predicateNamed ends, fun more => ?_, ?_⟩
    · obtain ⟨_⟩ := spelled
      exact .inr ⟨"where", by simp [clauseWords], _, rfl⟩
    · obtain ⟨_⟩ := spelled
      simp
  refine matched?_many_texts each (goesOn.mono (by simp [clauseWords])) ?_ (Nat.lt_succ_self _)
  exact goesOn.absent (by simp [clauseWords]) (by simp [clauseWords]) (by simp) _

/-- The projection is read if there is one. -/
theorem exists_possibly_selectClause
    {projection : List Expr}
    (spells : List.Forall₂ Expr.Spells projection texts)
    (named : ∀ e ∈ projection, e.Named)
    (goesOn : GoesOn ["order", "take"] rest) :
    ∃ found, (possibly selectClause (listClauseText " select " texts ++ rest)).matched? =
      some (found, rest) ∧ found.getD (.ok []) = .ok projection := by
  have backs := ((List.forall₂_and_left _ _).mpr ⟨named, spells⟩).imp
    fun _ _ both => readBack_of_spells both.2 both.1
  refine exists_possibly_listClause backs ?_ fun notEmpty =>
    matched?_selectClause notEmpty backs (goesOn.mono (by simp [clauseWords]))
  exact goesOn.absent (by simp [clauseWords]) (by simp [clauseWords]) (by simp) _

/-- The ordering is read if there is one. -/
theorem exists_possibly_orderClause
    {ordering : List SortKey}
    (spells : List.Forall₂ SortKey.Spells ordering texts)
    (named : ∀ key ∈ ordering, key.expr.Named)
    (goesOn : GoesOn ["take"] rest) :
    ∃ found, (possibly orderClause (listClauseText " order by " texts ++ rest)).matched? =
      some (found, rest) ∧ found.getD (.ok []) = .ok ordering := by
  have keys := ((List.forall₂_and_left _ _).mpr ⟨named, spells⟩).imp
    fun _ _ both => And.intro both.2 both.1
  refine exists_possibly_listClause keys ?_ fun notEmpty =>
    matched?_orderClause notEmpty keys (goesOn.mono (by simp [clauseWords]))
  exact goesOn.absent (by simp [clauseWords]) (by simp [clauseWords]) (by simp) _

/-- The limit is read if there is one. -/
theorem possibly_takeClause
    (limit? : Option UInt64) :
    (possibly takeClause (limitText limit?)).matched? = some (limit?.map .ok, []) := by
  cases limit? with
  | none => rfl
  | some count => exact matched?_optional_of_some (matched?_takeClause count)

/-- Every canonical text of a query is read back. -/
theorem matched?_query_of_spells
    {query : Query}
    {text : List Char}
    (spells : query.Spells text)
    (named : query.Named) :
    (Grammar.query text).matched? = some (.ok query, []) := by
  obtain ⟨joinSpells, filterSpells, projectionSpells, orderingSpells⟩ := spells
  rename_i joinTexts filterTexts projectionTexts orderingTexts
  obtain ⟨itemProper, entityProper⟩ := named.sources query.source (by simp [sources])
  have inFilters : ∀ predicate ∈ query.filters, predicate.Named := fun predicate member =>
    named.expressions predicate (by simp [expressions, member])
  have inProjection : ∀ e ∈ query.projection, e.Named := fun e member =>
    named.expressions e (by simp [expressions, member])
  have inOrdering : ∀ key ∈ query.ordering, key.expr.Named := fun key member =>
    named.expressions key.expr (by
      simp only [expressions, List.mem_append]
      exact .inr (List.mem_map_of_mem member))
  have fromTake := goesOn_limitText query.limit?
  have fromOrder : GoesOn ["order", "take"]
      (listClauseText " order by " orderingTexts ++ limitText query.limit?) :=
    fromTake.ofClause ⟨"by ".toList, rfl⟩
  have fromSelect : GoesOn ["select", "order", "take"]
      (listClauseText " select " projectionTexts ++
        (listClauseText " order by " orderingTexts ++ limitText query.limit?)) :=
    fromOrder.ofClause ⟨[], rfl⟩
  have filtersFound := matched?_filters filterSpells inFilters fromSelect
  have fromWhere := fromSelect.ofFilters filterSpells
  have joinsFound := matched?_joins joinSpells (fun _ => named.join) fromWhere
  have fromJoin := fromWhere.ofJoins joinSpells
  obtain ⟨projected, projectionFound, isProjection⟩ :=
    exists_possibly_selectClause projectionSpells inProjection fromOrder
  obtain ⟨ordered, orderingFound, isOrdering⟩ :=
    exists_possibly_orderClause orderingSpells inOrdering fromTake
  have noSemicolon : (possibly (sign ';') []).matched? = some (none, []) := rfl
  have noLayout : (layout []).matched? = some ((), []) := rfl
  have ended : (endOfText []).matched? = some ((), []) := rfl
  have skipped : ∀ cs, skipLayout .between ("from ".toList ++ cs) = "from ".toList ++ cs :=
    fun cs => skipLayout_sign rfl (by decide) (by decide)
  rw [Grammar.query, matched?_rule, matched?_bind_of_some matched?_layout, skipped,
    matched?_bind_of_some (matched?_fromClause itemProper entityProper fromJoin.endsExpr.noName),
    matched?_bind_of_some joinsFound, matched?_bind_of_some filtersFound,
    matched?_bind_of_some projectionFound, matched?_bind_of_some orderingFound,
    matched?_bind_of_some (possibly_takeClause query.limit?),
    matched?_bind_of_some noSemicolon, matched?_bind_of_some noLayout,
    matched?_bind_of_some ended, matched?_pure, collect_ok, collect_ok, isProjection, isOrdering]
  obtain ⟨source, joins, filters, projection, ordering, limit?⟩ := query
  cases limit? <;> rfl

end Whole

/-- A canonical text of a query whose names are identifiers is read as the query. -/
theorem parse_of_spells
    {query : Query}
    {text : String}
    (spells : query.Spells text.toList)
    (named : query.Named) :
    Query.parse text = .ok query :=
  parse_eq_ok_iff.mpr ⟨[], matched?_query_of_spells spells named⟩

/--
A query without reals can be read from a text exactly if its names are identifiers.  It
then has a canonical text, each of its canonical texts is read as it, and none of them
is a canonical text of another such query.
-/
theorem named_iff_canonical
    (query : Query)
    (noReals : query.NoReals) :
    (query.Named ↔ ∃ text, Query.parse text = .ok query) ∧
      (query.Named →
        (∃ text : String, query.Spells text.toList) ∧
          ∀ text : String, query.Spells text.toList →
            Query.parse text = .ok query ∧
              ∀ other : Query, other.Named → other.Spells text.toList → other = query) := by
  obtain ⟨spelling, isSpelling⟩ := exists_spells noReals
  have spelled : query.Spells (String.ofList spelling).toList := by
    rwa [String.toList_ofList]
  refine ⟨⟨fun named => ⟨_, parse_of_spells spelled named⟩, ?_⟩, ?_⟩
  · rintro ⟨text, parsed⟩
    exact (written_of_parse parsed).named
  · intro named
    refine ⟨⟨_, spelled⟩, fun text spells => ⟨parse_of_spells spells named, ?_⟩⟩
    intro other otherNamed otherSpells
    have same := (parse_of_spells otherSpells otherNamed).symm.trans (parse_of_spells spells named)
    exact Except.ok.inj same

/-- A join, a search for a text with quotes and a comment in it, and the extreme numbers. -/
def quotedSearch : Query where
  source := ⟨"c", "Customers"⟩
  joins := [⟨⟨"o", "Orders"⟩, .member "o" "Buyer", .member "c" "Id"⟩]
  filters := [.and (.search "c" "a\"--'") (.not (.compare (.member "o" "Number") .gtEq
    (.literal (.integer Int64.minValue))))]
  projection := [.member "c" "Id", .call "upper" [.member "c" "Name"]]
  ordering := [⟨.item "o", true⟩]
  limit? := some 18446744073709551615

theorem reads_quotedSearch :
    quotedSearch.NoReals ∧ quotedSearch.Named ∧
      Query.parse ("from c in Customers join o in Orders on o.Buyer = c.Id " ++
        "where search(c, \"a\"\"--'\") and (not (o.Number >= -9223372036854775808)) " ++
        "select c.Id, upper(c.Name) order by o desc take 18446744073709551615") =
          .ok quotedSearch := by
  have noReals : quotedSearch.NoReals := by
    simp [NoReals, expressions, quotedSearch, Expr.NoReals, Expr.search]
  have named : quotedSearch.Named := by
    constructor
    · decide
    · have names : ∀ name ∈ ["c", "o", "Id", "Buyer", "Name", "Number", "search", "upper"],
          IsName name := by decide
      simp [expressions, quotedSearch, Expr.Named, Expr.HasNames, Expr.search,
        Expr.searchFunction, names]
  obtain ⟨text, spells, same⟩ : ∃ text, quotedSearch.Spells text ∧ text =
      ("from c in Customers join o in Orders on o.Buyer = c.Id " ++
        "where search(c, \"a\"\"--'\") and (not (o.Number >= -9223372036854775808)) " ++
        "select c.Id, upper(c.Name) order by o desc take 18446744073709551615").toList := by
    refine ⟨_, .intro (.cons (.intro .member .member) .nil)
      (.cons (.intro (.and (.ofArgs (.cons .item (.cons (.text (.inl rfl)) .nil)))
        (.not (.compare .member .integer)))) .nil)
      (.cons .member (.cons (.ofArgs (.cons .member .nil)) .nil))
      (.cons (.intro .item) .nil), ?_⟩
    simp only [String.toList_append]
    decide +kernel
  exact ⟨noReals, named,
    ((named_iff_canonical quotedSearch noReals).2 named).2 _ (same ▸ spells) |>.1⟩

end FullTextQuery.Query
