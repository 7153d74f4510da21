import FullTextQuery.Proofs.Sql.Regrouping
import FullTextQuery.Proofs.Sql.StatementTokens

namespace FullTextQuery

/-!
# What written statements are read as

The reader turns the tokens of a statement into the selection of its parts,
each expression being read as its grouping.  What follows a part begins with a
comma or with the word of a later clause, so no part takes more than its own
tokens.
-/

open Sql

/-- The result column that the text of an output column is read as. -/
def OutputColumn.grouped?
    [NumeralReading]
    (item : OutputColumn) :
    Option ResultTerm :=
  item.expr.grouped?.map fun term => ⟨term, item.name⟩

/-- The joined table that the text of one is read as. -/
def JoinedTable.grouped?
    [NumeralReading]
    (join : JoinedTable) :
    Option JoinTerm :=
  join.on.grouped?.map fun term => ⟨join.table, term⟩

/-- The sort term that the text of one is read as. -/
def OrderTerm.grouped?
    [NumeralReading]
    (order : OrderTerm) :
    Option SortTerm :=
  order.expr.grouped?.map fun term => ⟨term, order.descending⟩

/-- The selection that the text of a statement is read as; one without results is not read. -/
def Statement.grouped?
    [NumeralReading]
    (s : Statement) :
    Option Selection := do
  let results ← if s.projection.isEmpty then none else s.projection.mapM OutputColumn.grouped?
  let joins ← s.joins.mapM JoinedTable.grouped?
  let filter? ← s.predicate?.mapM RelExpr.grouped?
  let ordering ← s.ordering.mapM OrderTerm.grouped?
  return ⟨results, s.source, joins, filter?, ordering, s.limit?.map UInt64.toNat⟩

namespace Sql.Reader

variable {rest : List Token}

/-- Whether some tokens, if there are any, begin with one of some words. -/
def BeginsWith
    (words : List String)
    (rest : List Token) :
    Prop :=
  ∀ token ∈ rest.head?, ∃ word ∈ words, token = .word word

@[simp] theorem beginsWith_nil
    {words : List String} :
    BeginsWith words [] := by
  simp [BeginsWith]

@[simp] theorem beginsWith_word
    {words : List String}
    {word : String} :
    BeginsWith words (.word word :: rest) ↔ word ∈ words := by
  simp [BeginsWith]

/-- Where the words of an earlier clause were possible, those of a later one are too. -/
theorem BeginsWith.mono
    {words others : List String}
    (begins : BeginsWith words rest)
    (subset : ∀ word ∈ words, word ∈ others) :
    BeginsWith others rest := by
  intro token front
  obtain ⟨word, isWord, same⟩ := begins token front
  exact ⟨word, subset word isWord, same⟩

/-- The words with which clauses begin. -/
def clauseWords : List String :=
  ["INNER", "WHERE", "ORDER", "LIMIT"]

/-- Whether an expression ends where some tokens begin. -/
structure EndsTerm
    (rest : List Token) :
    Prop where
  notCall : NotCall rest
  stops : StopsAt loosest rest

theorem endsTerm_comma :
    EndsTerm (.sign .comma :: rest) :=
  ⟨notCall_cons (by simp), stopsAt_comma⟩

/-- A word that is no operator ends an expression. -/
theorem endsTerm_word
    {word : String}
    (noOperator : infix? [.word word] = none) :
    EndsTerm (.word word :: rest) := by
  refine ⟨notCall_cons (by simp), ?_⟩
  have noInfix : infix? (.word word :: rest) = none := by
    simp only [infix?] at noOperator ⊢
    split
    case h_6 => rfl
    all_goals simp_all [afterKeyword?]
  intro found isFound
  rw [noInfix] at isFound
  cases isFound

/-- An expression ends where a clause begins. -/
theorem BeginsWith.endsTerm
    (begins : BeginsWith clauseWords rest) :
    EndsTerm rest := by
  have noOperators : ∀ word ∈ clauseWords, infix? [.word word] = none := by decide
  cases rest with
  | nil => exact ⟨by simp [NotCall], by simp [StopsAt, infix?]⟩
  | cons token others =>
      obtain ⟨word, isWord, rfl⟩ := begins token rfl
      exact endsTerm_word (noOperators word isWord)

/-- Where other words begin, a keyword does not. -/
theorem BeginsWith.afterKeyword?_eq_none
    {words : List String}
    {keyword : String}
    (begins : BeginsWith words rest)
    (others : ∀ word ∈ words, keyword? (.word word) ≠ some keyword) :
    afterKeyword? keyword rest = none := by
  cases rest with
  | nil => rfl
  | cons token behind =>
      obtain ⟨word, isWord, rfl⟩ := begins token rfl
      rw [afterKeyword?, if_neg (others word isWord)]

/-- No comma stands where a keyword does. -/
theorem BeginsWith.afterComma?_eq_none
    {words : List String}
    (begins : BeginsWith words rest) :
    afterSign? .comma rest = none := by
  cases rest with
  | nil => rfl
  | cons token behind =>
      obtain ⟨word, isWord, rfl⟩ := begins token rfl
      rfl

/-- A keyword is found where it stands. -/
theorem afterKeyword?_word
    {word : String}
    (isKeyword : keyword? (.word word) = some word) :
    afterKeyword? word (.word word :: rest) = some rest := by
  rw [afterKeyword?, if_pos isKeyword]

section Parts

/-- A quoted name behind `AS` is read as the alias. -/
theorem aliasName?_tokens
    (name : String) :
    aliasName? (.word "AS" :: .name name :: rest) = some (name, rest) := by
  rw [aliasName?, afterKeyword?_word (by decide)]

/-- The tokens of a table are read as the table. -/
theorem table?_tokens
    (source : AliasedTable)
    (rest : List Token) :
    table? (Statement.tableTokens source ++ rest) = some (source, rest) := by
  simp [Statement.tableTokens, table?, aliasName?_tokens]

variable [NumeralReading]

/-- An expression is read up to where it ends. -/
theorem EndsTerm.term?_tokens
    {e : RelExpr}
    (ends : EndsTerm rest)
    (plain : e.Plain) :
    term? (e.tokens ++ rest) = e.grouped?.map (·, rest) :=
  Reader.term?_tokens plain ends.notCall ends.stops

/-- The tokens of a result column are read as what it is grouped as. -/
theorem result?_tokens
    {item : OutputColumn}
    (plain : item.expr.Plain)
    (rest : List Token) :
    result? (Statement.columnTokens item ++ rest) = item.grouped?.map (·, rest) := by
  have ends : EndsTerm (.word "AS" :: .name item.name :: rest) := endsTerm_word (by decide)
  rw [Statement.columnTokens, List.append_assoc, List.cons_append, List.singleton_append, result?,
    ends.term?_tokens plain, OutputColumn.grouped?]
  cases item.expr.grouped? <;> simp [aliasName?_tokens]

/-- The tokens of a join are read as what it is grouped as. -/
theorem join?_tokens
    {join : JoinedTable}
    (plain : join.on.Plain)
    (ends : EndsTerm rest) :
    join? (Statement.joinTokens join ++ rest) = join.grouped?.map (·, rest) := by
  have isKeyword : keyword? (.word "INNER") = some "INNER" ∧ keyword? (.word "JOIN") = some "JOIN" ∧
      keyword? (.word "ON") = some "ON" := by
    decide
  simp only [Statement.joinTokens, List.cons_append, List.append_assoc, join?,
    afterKeyword?_word isKeyword.1, afterKeyword?_word isKeyword.2.1,
    afterKeyword?_word isKeyword.2.2, table?_tokens, Option.bind_eq_bind, Option.bind_some,
    ends.term?_tokens plain, JoinedTable.grouped?]
  cases join.on.grouped? <;> rfl

/-- The tokens of a sort term are read as what it is grouped as. -/
theorem sortTerm?_tokens
    {order : OrderTerm}
    (plain : order.expr.Plain)
    (ends : EndsTerm rest)
    (notDescending : afterKeyword? "DESC" rest = none) :
    sortTerm? (Statement.orderTokens order ++ rest) = order.grouped?.map (·, rest) := by
  have isKeyword : keyword? (.word "DESC") = some "DESC" := by decide
  unfold Statement.orderTokens OrderTerm.grouped?
  cases order.descending with
  | false =>
      simp only [Bool.false_eq_true, ↓reduceIte, List.append_nil, sortTerm?,
        ends.term?_tokens plain]
      cases order.expr.grouped? <;> simp [notDescending]
  | true =>
      have endsAtWord : EndsTerm (.word "DESC" :: rest) := endsTerm_word (by decide)
      simp only [↓reduceIte, List.append_assoc, List.singleton_append, sortTerm?,
        endsAtWord.term?_tokens plain]
      cases order.expr.grouped? <;> simp [afterKeyword?_word isKeyword]

end Parts

section Lists

variable
  {part : List Token → Option (α × List Token)}
  {tokens : β → List Token}
  {read? : β → Option α}

/-- Items with commas between them are read one after another. -/
theorem separated?_tokens
    (Ends : List Token → Prop)
    {first : β}
    {items : List β}
    {fuel : Nat}
    (each : ∀ item ∈ first :: items, ∀ behind, Ends behind →
      part (tokens item ++ behind) = (read? item).map (·, behind))
    (atComma : ∀ behind, Ends (.sign .comma :: behind))
    (ends : Ends rest)
    (noComma : afterSign? .comma rest = none)
    (enough : items.length < fuel) :
    separated? part fuel (separatedTokens tokens (first :: items) ++ rest) =
      ((first :: items).mapM read?).map (·, rest) := by
  induction items generalizing first fuel with
  | nil =>
      obtain ⟨fuel, rfl⟩ := Nat.exists_eq_succ_of_ne_zero (Nat.ne_zero_of_lt enough)
      simp only [separatedTokens, List.flatMap_nil, List.append_nil, separated?,
        each first (by simp) rest ends]
      cases isRead : read? first <;> simp [isRead, noComma]
  | cons next items inductionHypothesis =>
      obtain ⟨fuel, rfl⟩ := Nat.exists_eq_succ_of_ne_zero (Nat.ne_zero_of_lt enough)
      obtain ⟨firstRead, itemsRead⟩ := List.forall_mem_cons.mp each
      have further : separated? part fuel (separatedTokens tokens (next :: items) ++ rest) = _ :=
        inductionHypothesis itemsRead (by simpa using enough)
      have split : separatedTokens tokens (first :: next :: items) ++ rest =
          tokens first ++ .sign .comma :: (separatedTokens tokens (next :: items) ++ rest) := by
        simp [separatedTokens]
      rw [split, separated?, firstRead _ (atComma _), List.mapM_cons]
      cases read? first with
      | none => rfl
      | some value =>
          simp only [Option.map_some, Option.bind_eq_bind, Option.bind_some, afterSign?,
            ↓reduceIte, further]
          cases (next :: items).mapM read? <;> rfl

/-- There are at least as many tokens as commas between items. -/
theorem length_le_separatedTokens
    (tokens : β → List Token)
    (first : β)
    (items : List β) :
    items.length ≤ (separatedTokens tokens (first :: items)).length := by
  have commas : items.length ≤
      (items.flatMap fun item => .sign .comma :: tokens item).length := by
    induction items with
    | nil => exact le_rfl
    | cons item items inductionHypothesis =>
        simp only [List.flatMap_cons, List.length_append, List.length_cons]
        omega
  rw [separatedTokens, List.length_append]
  omega

end Lists

section Clauses

variable [NumeralReading]

/-- Joined tables are read one after another, as many as there are. -/
theorem joins?_tokens
    {joins : List JoinedTable}
    {fuel : Nat}
    (plain : ∀ join ∈ joins, join.on.Plain)
    (begins : BeginsWith ["WHERE", "ORDER", "LIMIT"] rest)
    (enough : joins.length ≤ fuel) :
    joins? fuel (joins.flatMap Statement.joinTokens ++ rest) =
      (joins.mapM JoinedTable.grouped?).map (·, rest) := by
  have isKeyword : keyword? (.word "INNER") = some "INNER" := by decide
  induction joins generalizing fuel with
  | nil =>
      have noJoin : afterKeyword? "INNER" rest = none :=
        begins.afterKeyword?_eq_none (by decide)
      cases fuel <;> simp [joins?, noJoin]
  | cons join joins inductionHypothesis =>
      obtain ⟨fuel, rfl⟩ := Nat.exists_eq_succ_of_ne_zero
        (Nat.ne_zero_of_lt (Nat.lt_of_lt_of_le (Nat.succ_pos _) enough))
      obtain ⟨joinPlain, joinsPlain⟩ := List.forall_mem_cons.mp plain
      have further : joins? fuel (joins.flatMap Statement.joinTokens ++ rest) = _ :=
        inductionHypothesis joinsPlain (by simpa using enough)
      have behind : BeginsWith clauseWords (joins.flatMap Statement.joinTokens ++ rest) := by
        cases joins with
        | nil => exact begins.mono (by decide)
        | cons => simp [Statement.joinTokens, clauseWords]
      obtain ⟨others, isJoin⟩ : ∃ others, afterKeyword? "INNER"
          (Statement.joinTokens join ++ (joins.flatMap Statement.joinTokens ++ rest)) =
            some others :=
        ⟨_, afterKeyword?_word isKeyword⟩
      simp only [List.flatMap_cons, List.append_assoc, joins?, isJoin,
        join?_tokens joinPlain behind.endsTerm, List.mapM_cons]
      cases join.grouped? with
      | none => rfl
      | some term =>
          simp only [Option.map_some, Option.bind_eq_bind, Option.bind_some, further]
          cases joins.mapM JoinedTable.grouped? <;> rfl

/-- A condition on the joined rows is read if it is there. -/
theorem clause?_filterTokens
    {predicate? : Option RelExpr}
    (plain : ∀ predicate ∈ predicate?, predicate.Plain)
    (begins : BeginsWith ["ORDER", "LIMIT"] rest) :
    clause? "WHERE" term? (Statement.filterTokens predicate? ++ rest) =
      (predicate?.mapM RelExpr.grouped?).map (·, rest) := by
  have isKeyword : keyword? (.word "WHERE") = some "WHERE" := by decide
  cases predicate? with
  | none =>
      have noFilter : afterKeyword? "WHERE" rest = none :=
        begins.afterKeyword?_eq_none (by decide)
      simp [Statement.filterTokens, clause?, noFilter]
  | some predicate =>
      have ends : EndsTerm rest := (begins.mono (by decide)).endsTerm
      simp only [Statement.filterTokens, List.cons_append, clause?,
        afterKeyword?_word isKeyword, ends.term?_tokens (plain predicate rfl), Option.mapM_some]
      cases predicate.grouped? <;> rfl

/-- Sort terms are read if there are any. -/
theorem clause?_orderingTokens
    {terms : List OrderTerm}
    (plain : ∀ order ∈ terms, order.expr.Plain)
    (begins : BeginsWith ["LIMIT"] rest) :
    (clause? "ORDER" ordering? (Statement.orderingTokens terms ++ rest)).map
        (fun found => (found.1.getD [], found.2)) =
      (terms.mapM OrderTerm.grouped?).map (·, rest) := by
  have isKeyword : keyword? (.word "ORDER") = some "ORDER" ∧ keyword? (.word "BY") = some "BY" := by
    decide
  cases terms with
  | nil =>
      have noOrdering : afterKeyword? "ORDER" rest = none :=
        begins.afterKeyword?_eq_none (by decide)
      simp [Statement.orderingTokens, clause?, noOrdering]
  | cons first terms =>
      have few := length_le_separatedTokens Statement.orderTokens first terms
      have read : ordering? (.word "BY" ::
          (separatedTokens Statement.orderTokens (first :: terms) ++ rest)) =
            ((first :: terms).mapM OrderTerm.grouped?).map (·, rest) := by
        rw [ordering?, afterKeyword?_word isKeyword.2]
        refine separated?_tokens
          (fun behind => EndsTerm behind ∧ afterKeyword? "DESC" behind = none)
          (fun order isTerm behind ends => sortTerm?_tokens (plain order isTerm) ends.1 ends.2)
          (fun behind => ⟨endsTerm_comma, rfl⟩)
          ⟨(begins.mono (by decide)).endsTerm, begins.afterKeyword?_eq_none (by decide)⟩
          begins.afterComma?_eq_none ?_
        simp only [List.length_cons, List.length_append]
        omega
      simp only [Statement.orderingTokens, List.cons_append, clause?,
        afterKeyword?_word isKeyword.1, read]
      cases (first :: terms).mapM OrderTerm.grouped? <;> rfl

omit [NumeralReading] in
/-- A limit is read if there is one. -/
theorem clause?_limitTokens
    (limit? : Option UInt64) :
    clause? "LIMIT" Reader.limit? (Statement.limitTokens limit?) =
      some (limit?.map UInt64.toNat, []) := by
  have isKeyword : keyword? (.word "LIMIT") = some "LIMIT" := by decide
  cases limit? with
  | none => rfl
  | some limit =>
      have mantissa : Decimal.Numeral.mantissa ⟨Decimal.digits limit.toNat, 0⟩ = limit.toNat :=
        Decimal.ofDigits_digits _
      simp [Statement.limitTokens, clause?, afterKeyword?_word isKeyword, Reader.limit?, mantissa]

end Clauses

/-- Nothing is read as the results of a statement without result columns. -/
theorem separated?_from
    [NumeralReading]
    (fuel : Nat)
    (name : String) :
    separated? result? fuel (.word "FROM" :: .name name :: rest) = none := by
  have isKeyword : keyword? (.word "FROM") = some "FROM" ∧ upperName "FROM" ≠ "NOT" := by decide
  cases fuel with
  | zero => rfl
  | succ fuel =>
      have noOperand : ∀ fuel, operand? fuel (.word "FROM" :: .name name :: rest) = none := by
        intro fuel
        cases fuel with
        | zero => rfl
        | succ fuel =>
            rw [operand?_word isKeyword.2 (notCall_cons (by simp))]
            simp [simple?, isKeyword.1]
      simp [separated?, result?, term?, depth, expression?, noOperand]

/-- A statement has a token for each of its columns, and one for each of its joins. -/
theorem length_le_tokens
    (s : Statement) :
    s.projection.length ≤ s.tokens.length ∧ s.joins.length ≤ s.tokens.length := by
  have columns : s.projection.length ≤
      (separatedTokens Statement.columnTokens s.projection).length + 1 := by
    cases s.projection with
    | nil => exact Nat.zero_le _
    | cons first items =>
        exact Nat.succ_le_succ (length_le_separatedTokens Statement.columnTokens first items)
  have joins : s.joins.length ≤ (s.joins.flatMap Statement.joinTokens).length := by
    induction s.joins with
    | nil => exact le_rfl
    | cons join joins inductionHypothesis =>
        simp only [List.flatMap_cons, List.length_append, List.length_cons, Statement.joinTokens]
        omega
  simp only [Statement.tokens, List.length_cons, List.length_append]
  omega

/-- The tokens of a plain statement are read as the selection of its parts. -/
theorem selection?_tokens
    [NumeralReading]
    {s : Statement}
    (plain : s.Plain) :
    selection? s.tokens = s.grouped? := by
  simp only [Statement.Plain, Statement.expressions, List.forall_mem_append,
    List.forall_mem_map, Option.mem_toList] at plain
  obtain ⟨⟨⟨columnsPlain, joinsPlain⟩, predicatePlain⟩, orderingPlain⟩ := plain
  have isKeyword : keyword? (.word "SELECT") = some "SELECT" ∧
      keyword? (.word "FROM") = some "FROM" := by
    decide
  have atLimit : BeginsWith ["LIMIT"] (Statement.limitTokens s.limit?) := by
    cases s.limit? <;> simp [Statement.limitTokens]
  have atOrdering : BeginsWith ["ORDER", "LIMIT"]
      (Statement.orderingTokens s.ordering ++ Statement.limitTokens s.limit?) := by
    cases s.ordering with
    | nil => exact atLimit.mono (by decide)
    | cons => simp [Statement.orderingTokens]
  have atFilter : BeginsWith ["WHERE", "ORDER", "LIMIT"] (Statement.filterTokens s.predicate? ++
      (Statement.orderingTokens s.ordering ++ Statement.limitTokens s.limit?)) := by
    cases s.predicate? with
    | none => exact atOrdering.mono (by decide)
    | some => simp [Statement.filterTokens]
  have ordering := clause?_orderingTokens orderingPlain atLimit
  obtain ⟨fewColumns, fewJoins⟩ := length_le_tokens s
  rw [selection?]
  generalize s.tokens.length = enough at fewColumns fewJoins ⊢
  rw [Statement.tokens, afterKeyword?_word isKeyword.1, Statement.grouped?]
  cases isProjection : s.projection with
  | nil =>
      simp only [separatedTokens, Statement.tableTokens, List.nil_append, List.cons_append,
        Option.bind_eq_bind, Option.bind_some, separated?_from, Option.bind_none,
        List.isEmpty_nil, ↓reduceIte]
  | cons first items =>
      rw [isProjection] at columnsPlain fewColumns
      have results : ∀ rest, separated? result? enough
          (separatedTokens Statement.columnTokens (first :: items) ++ .word "FROM" :: rest) =
            ((first :: items).mapM OutputColumn.grouped?).map (·, .word "FROM" :: rest) :=
        fun rest => separated?_tokens (fun _ => True)
          (fun item isItem behind _ => result?_tokens (columnsPlain item isItem) behind)
          (fun _ => trivial) trivial rfl fewColumns
      simp only [Option.bind_eq_bind, Option.bind_some, results, List.isEmpty_cons,
        Bool.false_eq_true, ↓reduceIte]
      cases (first :: items).mapM OutputColumn.grouped? with
      | none => rfl
      | some results =>
          simp only [Option.map_some, Option.bind_some, afterKeyword?_word isKeyword.2,
            table?_tokens, joins?_tokens joinsPlain atFilter fewJoins]
          cases s.joins.mapM JoinedTable.grouped? with
          | none => rfl
          | some joins =>
              simp only [Option.map_some, Option.bind_some,
                clause?_filterTokens predicatePlain atOrdering]
              cases s.predicate?.mapM RelExpr.grouped? with
              | none => rfl
              | some filter? =>
                  simp only [Option.map_some, Option.bind_some]
                  cases isOrdering : s.ordering.mapM OrderTerm.grouped? with
                  | none =>
                      rw [isOrdering, Option.map_none, Option.map_eq_none_iff] at ordering
                      rw [ordering]
                      rfl
                  | some terms =>
                      rw [isOrdering] at ordering
                      obtain ⟨⟨found, rest⟩, isFound, same⟩ := Option.map_eq_some_iff.mp ordering
                      obtain ⟨rfl, rfl⟩ := Prod.mk.inj same
                      simp [isFound, clause?_limitTokens]

end Sql.Reader

namespace Statement

/-- What the text of a plain statement is read as. -/
theorem prepare?_text
    [NumeralReading]
    {s : Statement}
    (plain : s.Plain) :
    prepare? s.text =
      if s.NulFree then s.grouped?.map (Prepared.mk · (parameterNames s.tokens)) else none := by
  rw [prepare?, tokens?_text plain]
  split
  · rw [Option.bind_eq_bind, Option.bind_some, Reader.selection?_tokens plain]
    cases s.grouped? <;> rfl
  · rfl

end Statement

end FullTextQuery
