import FullTextQuery.Proofs.Sql.Tokens

namespace FullTextQuery

/-!
# The tokens of statements

The tokens that the text of a statement is scanned as, clause by clause.  As
with expressions, the text is refused exactly if a name or a text literal in it
has a NUL.
-/

namespace Sql

/-- The tokens of items with commas between them. -/
def separatedTokens
    (tokens : α → List Token) :
    List α → List Token
  | [] => []
  | item :: items => tokens item ++ items.flatMap fun item => .sign .comma :: tokens item

end Sql

namespace Statement

open Sql

/-- The tokens of a table and its alias. -/
def tableTokens
    (source : AliasedTable) :
    List Token :=
  [.name source.table, .word "AS", .name source.tableAlias]

/-- The tokens of a result column and its name. -/
def columnTokens
    (item : OutputColumn) :
    List Token :=
  item.expr.tokens ++ [.word "AS", .name item.name]

/-- The tokens of a joined table and its condition. -/
def joinTokens
    (join : JoinedTable) :
    List Token :=
  .word "INNER" :: .word "JOIN" :: (tableTokens join.table ++ .word "ON" :: join.on.tokens)

/-- The tokens of a sort term. -/
def orderTokens
    (term : OrderTerm) :
    List Token :=
  term.expr.tokens ++ if term.descending then [.word "DESC"] else []

/-- The tokens of a condition on the joined rows. -/
def filterTokens : Option RelExpr → List Token
  | some predicate => .word "WHERE" :: predicate.tokens
  | none => []

/-- The tokens of an order of the rows. -/
def orderingTokens : List OrderTerm → List Token
  | [] => []
  | terms => .word "ORDER" :: .word "BY" :: separatedTokens orderTokens terms

/-- The tokens of a limit on the number of rows. -/
def limitTokens : Option UInt64 → List Token
  | some limit => [.word "LIMIT", .number ⟨Decimal.digits limit.toNat, 0⟩ false]
  | none => []

/-- The tokens of a statement. -/
def tokens
    (s : Statement) :
    List Token :=
  .word "SELECT" :: (separatedTokens columnTokens s.projection
    ++ .word "FROM" :: (tableTokens s.source
    ++ (s.joins.flatMap joinTokens
    ++ (filterTokens s.predicate? ++ (orderingTokens s.ordering ++ limitTokens s.limit?)))))

/-- Whether the names of a table have no NUL. -/
def TableNulFree
    (source : AliasedTable) :
    Prop :=
  nulFree source.table = true ∧ nulFree source.tableAlias = true

/-- Whether no quoted name or text in a statement has a NUL. -/
def NulFree
    (s : Statement) :
    Prop :=
  (∀ item ∈ s.projection, item.expr.NulFree ∧ nulFree item.name = true) ∧
    TableNulFree s.source ∧
    (∀ join ∈ s.joins, TableNulFree join.table ∧ join.on.NulFree) ∧
    (∀ predicate ∈ s.predicate?, predicate.NulFree) ∧
    ∀ term ∈ s.ordering, term.expr.NulFree

instance
    (source : AliasedTable) :
    Decidable (TableNulFree source) :=
  inferInstanceAs (Decidable (_ ∧ _))

instance
    (s : Statement) :
    Decidable s.NulFree :=
  inferInstanceAs (Decidable (_ ∧ _ ∧ _ ∧ _ ∧ _))

/-- Whether all expressions of a statement are plain. -/
def Plain
    (s : Statement) :
    Prop :=
  ∀ e ∈ s.expressions, e.Plain

end Statement

namespace Sql

variable {rest : List Char}

/-- A word with a blank on either side is scanned as the word. -/
theorem Scans.wordBetweenBlanks
    {name : String}
    (identifier : isWholeWord name = true)
    (rest : List Char) :
    Scans (' ' :: (name.toList ++ [' '])) [.word name] rest := by
  have whole := Scans.blank.append ((Scans.wordBlank identifier rest).append Scans.blank)
  simpa using whole

/-- Items with commas between them are scanned as their tokens if each of them is. -/
theorem scansIf_separated
    {text : α → String}
    {tokens : α → List Token}
    {readable : α → Prop}
    {items : List α}
    (each : ∀ item ∈ items, ∀ behind, Delimited behind →
      ScansIf (readable item) (text item).toList (tokens item) behind)
    (delimited : Delimited rest) :
    ScansIf (∀ item ∈ items, readable item) (String.intercalate ", " (items.map text)).toList
      (separatedTokens tokens items) rest := by
  induction items with
  | nil => exact Scans.nothing.scansIf.congr (by simp)
  | cons first items inductionHypothesis =>
      obtain ⟨firstScans, itemsScan⟩ := List.forall_mem_cons.mp each
      cases items with
      | nil =>
          simpa [separatedTokens] using firstScans rest delimited
      | cons next others =>
          have furtherScan := inductionHypothesis itemsScan
          have whole := (firstScans _ (by simp)).append
            (Scans.comma.scansIf.append (Scans.blank.scansIf.append furtherScan))
          have same : readable first ∧ True ∧ True ∧ (∀ item ∈ next :: others, readable item) ↔
              ∀ item ∈ first :: next :: others, readable item := by
            simp
          simpa [separatedTokens, String.intercalate_cons_cons] using whole.congr same

/-- Items that begin with a blank are scanned one behind the other if each of them is. -/
theorem scansIf_join
    {text : α → String}
    {tokens : α → List Token}
    {readable : α → Prop}
    {items : List α}
    (each : ∀ item ∈ items, ∀ behind, Delimited behind →
      ScansIf (readable item) (text item).toList (tokens item) behind)
    (blank : ∀ item ∈ items, (text item).toList.head? = some ' ')
    (delimited : Delimited rest) :
    Delimited ((String.join (items.map text)).toList ++ rest) ∧
      ScansIf (∀ item ∈ items, readable item) (String.join (items.map text)).toList
        (items.flatMap tokens) rest := by
  induction items with
  | nil => exact ⟨by simpa using delimited, Scans.nothing.scansIf.congr (by simp)⟩
  | cons first items inductionHypothesis =>
      obtain ⟨firstScans, itemsScan⟩ := List.forall_mem_cons.mp each
      obtain ⟨firstBlank, itemsBlank⟩ := List.forall_mem_cons.mp blank
      obtain ⟨behind, itemsScan⟩ := inductionHypothesis itemsScan itemsBlank
      constructor
      · intro c front
        have isFront : (text first).toList.head? = some c := by
          simpa [firstBlank] using front
        exact .inl (Option.some.inj (isFront.symm.trans firstBlank))
      · have whole := (firstScans _ behind).append itemsScan
        simpa using whole

end Sql

namespace Statement

open Sql

variable {rest : List Char}

/-- A table and its alias are scanned unless a name has a NUL. -/
theorem scansIf_tableText
    (source : AliasedTable)
    (delimited : Delimited rest) :
    ScansIf (TableNulFree source) (tableText source).toList (tableTokens source) rest := by
  have isWord : isWholeWord "AS" = true := by decide
  have whole := (scansIf_quoteName source.table (by simp)).append
    ((Scans.wordBetweenBlanks isWord _).scansIf.append
      (scansIf_quoteName source.tableAlias
        (delimited.stops (by decide) (by decide) (by decide))))
  simpa [tableText, tableTokens, TableNulFree] using whole

/-- A result column is scanned unless something quoted in it has a NUL. -/
theorem scansIf_columnText
    {item : OutputColumn}
    (plain : item.expr.Plain)
    (delimited : Delimited rest) :
    ScansIf (item.expr.NulFree ∧ nulFree item.name = true) (columnText item).toList
      (columnTokens item) rest := by
  have isWord : isWholeWord "AS" = true := by decide
  have whole := (RelExpr.scansIf_text plain (by simp)).append
    ((Scans.wordBetweenBlanks isWord _).scansIf.append
      (scansIf_quoteName item.name (delimited.stops (by decide) (by decide) (by decide))))
  simpa [columnText, columnTokens] using whole

/-- A joined table is scanned unless something quoted in it has a NUL. -/
theorem scansIf_joinText
    {join : JoinedTable}
    (plain : join.on.Plain)
    (delimited : Delimited rest) :
    ScansIf (TableNulFree join.table ∧ join.on.NulFree) (joinText join).toList
      (joinTokens join) rest := by
  have isWord : isWholeWord "INNER" = true ∧ isWholeWord "JOIN" = true ∧
      isWholeWord "ON" = true := by
    decide
  have whole := Scans.blank.scansIf.append ((Scans.wordBlank isWord.1 _).scansIf.append
    ((Scans.wordBetweenBlanks isWord.2.1 _).scansIf.append
      ((scansIf_tableText join.table (by simp)).append
        ((Scans.wordBetweenBlanks isWord.2.2 _).scansIf.append
          (RelExpr.scansIf_text plain delimited)))))
  unfold joinText
  simpa [joinTokens] using whole

/-- A sort term is scanned unless something quoted in it has a NUL. -/
theorem scansIf_orderText
    {term : OrderTerm}
    (plain : term.expr.Plain)
    (delimited : Delimited rest) :
    ScansIf term.expr.NulFree (orderText term).toList (orderTokens term) rest := by
  have isWord : isWholeWord "DESC" = true := by decide
  unfold orderText orderTokens
  cases term.descending with
  | false => simpa using RelExpr.scansIf_text plain delimited
  | true =>
      have word := Scans.word isWord (delimited.stops (by decide) (by decide) (by decide))
      have whole := (RelExpr.scansIf_text plain (by simp)).append
        (Scans.blank.append word).scansIf
      simpa using whole

/-- A condition on the joined rows is scanned unless something quoted in it has a NUL. -/
theorem scansIf_filterText
    (predicate? : Option RelExpr)
    (plain : ∀ predicate ∈ predicate?, predicate.Plain)
    (delimited : Delimited rest) :
    Delimited ((filterText predicate?).toList ++ rest) ∧
      ScansIf (∀ predicate ∈ predicate?, predicate.NulFree) (filterText predicate?).toList
        (filterTokens predicate?) rest := by
  have isWord : isWholeWord "WHERE" = true := by decide
  cases predicate? with
  | none =>
      exact ⟨by simpa [filterText] using delimited, Scans.nothing.scansIf.congr (by simp)⟩
  | some predicate =>
      have whole := (Scans.wordBetweenBlanks isWord _).scansIf.append
        (RelExpr.scansIf_text (plain predicate rfl) delimited)
      exact ⟨by simp [filterText], by simpa [filterText, filterTokens] using whole⟩

/-- Sort terms are scanned unless something quoted in them has a NUL. -/
theorem scansIf_orderingText
    {terms : List OrderTerm}
    (plain : ∀ term ∈ terms, term.expr.Plain)
    (delimited : Delimited rest) :
    Delimited ((orderingText terms).toList ++ rest) ∧
      ScansIf (∀ term ∈ terms, term.expr.NulFree) (orderingText terms).toList
        (orderingTokens terms) rest := by
  have isWord : isWholeWord "ORDER" = true ∧ isWholeWord "BY" = true := by decide
  have termsScan : ScansIf (∀ term ∈ terms, term.expr.NulFree)
      (String.intercalate ", " (terms.map orderText)).toList (separatedTokens orderTokens terms)
      rest :=
    scansIf_separated (fun term member _ => scansIf_orderText (plain term member)) delimited
  cases terms with
  | nil => exact ⟨by simpa [orderingText] using delimited, Scans.nothing.scansIf.congr (by simp)⟩
  | cons first others =>
      have whole := Scans.blank.scansIf.append ((Scans.wordBlank isWord.1 _).scansIf.append
        ((Scans.wordBetweenBlanks isWord.2 _).scansIf.append termsScan))
      exact ⟨by simp [orderingText], by simpa [orderingText, orderingTokens] using whole⟩

/-- A limit is scanned as its number. -/
theorem scans_limitText
    (limit? : Option UInt64)
    (delimited : Delimited rest) :
    Delimited ((limitText limit?).toList ++ rest) ∧
      Scans (limitText limit?).toList (limitTokens limit?) rest := by
  have isWord : isWholeWord "LIMIT" = true := by decide
  cases limit? with
  | none => exact ⟨by simpa [limitText] using delimited, Scans.nothing⟩
  | some limit =>
      have whole := (Scans.wordBetweenBlanks isWord _).append (Scans.digits limit.toNat delimited)
      have digits : (Decimal.ofInt limit.toNat).toList = Decimal.digits limit.toNat := by
        simp [Decimal.ofInt]
      exact ⟨by simp [limitText], by simpa [limitText, limitTokens, digits] using whole⟩

/-- The text of a plain statement is made of its tokens unless something quoted has a NUL. -/
theorem tokens?_text
    {s : Statement}
    (plain : s.Plain) :
    tokens? s.text = if s.NulFree then some s.tokens else none := by
  simp only [Plain, expressions, List.forall_mem_append, List.forall_mem_map] at plain
  obtain ⟨⟨⟨columnsPlain, joinsPlain⟩, predicatePlain⟩, orderingPlain⟩ := plain
  have isWord : isWholeWord "SELECT" = true ∧ isWholeWord "FROM" = true := by decide
  -- The clauses are put together from the last one on, each in front of all that follow it.
  obtain ⟨atLimit, limitScans⟩ := scans_limitText s.limit? delimited_nil
  obtain ⟨atOrdering, orderingScans⟩ := scansIf_orderingText orderingPlain atLimit
  rw [← List.append_assoc] at atOrdering
  obtain ⟨atFilter, filterScans⟩ :=
    scansIf_filterText s.predicate? (by simpa using predicatePlain) atOrdering
  rw [← List.append_assoc] at atFilter
  obtain ⟨atJoins, joinsScan⟩ := scansIf_join
    (fun join member _ => scansIf_joinText (joinsPlain join member))
    (fun join => by unfold joinText; simp) atFilter
  rw [← List.append_assoc] at atJoins
  have columnsScan : ∀ behind, Delimited behind → ScansIf _ _ _ behind := fun _ =>
    scansIf_separated fun item member _ => scansIf_columnText (columnsPlain item member)
  have whole := (Scans.wordBlank isWord.1 _).scansIf.append (Scans.blank.scansIf.append
    ((columnsScan _ (by simp)).append ((Scans.wordBetweenBlanks isWord.2 _).scansIf.append
      ((scansIf_tableText s.source atJoins).append (joinsScan.append
        (filterScans.append (orderingScans.append limitScans.scansIf)))))))
  refine ScansIf.tokens?_eq ?_
  unfold text
  simpa [tokens, NulFree] using whole

end Statement

end FullTextQuery
