import FullTextQuery.Proofs.Outcome
import FullTextQuery.Proofs.Relational.Nodes
import FullTextQuery.Sql.Writer

namespace FullTextQuery

/-!
# What a statement is written as

The text of an expression depends on the expression alone, and so do the uses
of parameters in it.  Writing puts the text behind what is there and lists the
parameters; it fails only if a parameter would be listed with two suppliers.
-/

namespace Sql

/-- List a parameter at its first use. -/
def listUse
    (listed : List StatementParameter)
    (use : StatementParameter) :
    Except Error (List StatementParameter) :=
  match listed.find? (·.name == use.name) with
  | some earlier =>
      if earlier.supplier = use.supplier then .ok listed
      else .error (.plan (.parameterOfTwoSources use.name))
  | none => .ok (listed ++ [use])

/-- List parameters in the order of their uses. -/
def listUses
    (listed : List StatementParameter)
    (uses : List StatementParameter) :
    Except Error (List StatementParameter) :=
  uses.foldlM listUse listed

end Sql

namespace RelExpr

mutual

/-- The text of an expression. -/
def text : RelExpr → String
  | .member .. => ""
  | .column tableAlias name => Sql.quoteName tableAlias ++ "." ++ Sql.quoteName name
  | .literal value => Sql.writeLiteral value
  | .parameter name => ":" ++ name
  | .compare left op right =>
      "(" ++ text left ++ " " ++ Sql.writeOperator op right ++ " " ++ text right ++ ")"
  | .and left right => "(" ++ text left ++ " AND " ++ text right ++ ")"
  | .or left right => "(" ++ text left ++ " OR " ++ text right ++ ")"
  | .not operand => "(NOT " ++ text operand ++ ")"
  | .function name args => Sql.upperName name ++ "(" ++ String.intercalate ", " (texts args) ++ ")"
  | .membership operand valueSet _ => text operand ++ " IN rarray(" ++ (":" ++ valueSet) ++ ")"

/-- The texts of expressions. -/
def texts : List RelExpr → List String
  | [] => []
  | e :: es => text e :: texts es

end

mutual

/-- The uses of parameters in an expression, in the order of its text. -/
def uses : RelExpr → List StatementParameter
  | .member .. | .column .. | .literal _ => []
  | .parameter name => [⟨name, .caller⟩]
  | .compare left _ right => uses left ++ uses right
  | .and left right => uses left ++ uses right
  | .or left right => uses left ++ uses right
  | .not operand => uses operand
  | .function _ args => usesOfAll args
  | .membership operand valueSet _ => uses operand ++ [⟨valueSet, .search⟩]

/-- The uses of parameters in expressions. -/
def usesOfAll : List RelExpr → List StatementParameter
  | [] => []
  | e :: es => uses e ++ usesOfAll es

end

/-- Arguments have their texts one by one. -/
theorem texts_eq_map
    (es : List RelExpr) :
    texts es = es.map text := by
  induction es with
  | nil => rfl
  | cons e es inductionHypothesis => simp [texts, inductionHypothesis]

/-- The uses in some expressions are those in each of them. -/
theorem usesOfAll_eq_flatMap
    (es : List RelExpr) :
    usesOfAll es = es.flatMap uses := by
  induction es with
  | nil => rfl
  | cons e es inductionHypothesis => simp [usesOfAll, inductionHypothesis]

/-- Whether no node is a member that has no column yet. -/
def Resolved
    (e : RelExpr) :
    Prop :=
  ∀ item property, .member item property ∉ e.nodes

section Resolved

variable {left right operand : RelExpr} {op : Comparison}

@[simp] theorem resolved_compare :
    (RelExpr.compare left op right).Resolved ↔ left.Resolved ∧ right.Resolved := by
  simp [Resolved, nodes_compare, forall_and]

@[simp] theorem resolved_and :
    (RelExpr.and left right).Resolved ↔ left.Resolved ∧ right.Resolved := by
  simp [Resolved, nodes_and, forall_and]

@[simp] theorem resolved_or :
    (RelExpr.or left right).Resolved ↔ left.Resolved ∧ right.Resolved := by
  simp [Resolved, nodes_or, forall_and]

@[simp] theorem resolved_not :
    (RelExpr.not operand).Resolved ↔ operand.Resolved := by
  simp [Resolved, nodes_not]

@[simp] theorem resolved_membership
    {valueSet : String}
    {search : SearchId} :
    (RelExpr.membership operand valueSet search).Resolved ↔ operand.Resolved := by
  simp [Resolved, nodes_membership]

@[simp] theorem resolved_function
    {name : String}
    {args : List RelExpr} :
    (RelExpr.function name args).Resolved ↔ ∀ arg ∈ args, arg.Resolved := by
  simp only [Resolved, nodes_function, List.mem_cons, reduceCtorEq, false_or,
    List.mem_flatMap, not_exists, not_and]
  exact ⟨fun absent arg member item property => absent item property arg member,
    fun absent item property arg member => absent arg member item property⟩

end Resolved

end RelExpr

namespace Sql.Writer

/-- Writing of a fixed text with fixed uses of parameters. -/
def writes
    (text : String)
    (uses : List StatementParameter) :
    Writer Unit :=
  fun written =>
    (listUses written.parameters uses).map fun parameters =>
      ((), ⟨written.text ++ text, parameters⟩)

/-- Where nothing is done, nothing is written. -/
theorem pure_eq_writes :
    (pure () : Writer Unit) = writes "" [] := by
  funext written
  have nothing : writes "" [] written = .ok ((), written) := by
    simp [writes, listUses, Except.map, pure, Except.pure]
  rw [nothing]
  rfl

/-- A text is written as it is and uses no parameter. -/
theorem put_eq_writes
    (text : String) :
    put text = writes text [] := by
  funext written
  simp [writes, put, listUses, Except.map, pure, Except.pure]

/-- A parameter is written behind a colon and used. -/
theorem parameter_eq_writes
    (name : String)
    (supplier : Supplier) :
    parameter name supplier = writes (":" ++ name) [⟨name, supplier⟩] := by
  funext written
  simp only [writes, parameter, listUses, listUse, List.foldlM_cons, List.foldlM_nil]
  cases written.parameters.find? (·.name == name) with
  | none => simp [Except.map, String.append_assoc]
  | some listed =>
      by_cases same : listed.supplier = supplier <;>
        simp [same, Except.map, String.append_assoc]

/-- What is written one after another is written as a whole. -/
theorem writes_then
    (first second : String)
    (firstUses secondUses : List StatementParameter) :
    (do writes first firstUses; writes second secondUses) =
      writes (first ++ second) (firstUses ++ secondUses) := by
  funext written
  simp only [writes, listUses, List.foldlM_append, bind, StateT.bind]
  cases List.foldlM listUse written.parameters firstUses with
  | error e => rfl
  | ok between =>
      simp only [Except.map, Except.bind, String.append_assoc]

/-- Items that are each written as a text are written with commas between their texts. -/
theorem separated_eq_writes
    {write : α → Writer Unit}
    {text : α → String}
    {uses : α → List StatementParameter}
    {items : List α}
    (each : ∀ item ∈ items, write item = writes (text item) (uses item)) :
    separated write items =
      writes (String.intercalate ", " (items.map text)) (items.flatMap uses) := by
  induction items with
  | nil =>
      exact pure_eq_writes
  | cons item rest inductionHypothesis =>
      obtain ⟨itemWrites, restWrites⟩ := List.forall_mem_cons.mp each
      cases rest with
      | nil => simpa [separated] using itemWrites
      | cons next others =>
          rw [separated, itemWrites, put_eq_writes, inductionHypothesis restWrites]
          · simp only [writes_then]
            simp [String.intercalate_cons_cons, String.append_assoc]
          · simp

/-- Arguments are written like any items with commas between them. -/
theorem exprs_eq_separated
    (args : List RelExpr) :
    exprs args = separated expr args := by
  induction args with
  | nil => rfl
  | cons arg rest inductionHypothesis =>
      cases rest with
      | nil => rfl
      | cons next others =>
          rw [exprs, separated, inductionHypothesis]
          · simp
          · simp

/-- An expression without members is written as its text, with its uses of parameters. -/
theorem expr_eq_writes
    {e : RelExpr}
    (resolved : e.Resolved) :
    expr e = writes e.text e.uses := by
  induction e with
  | member item property =>
      exact absurd (by simp [RelExpr.nodes]) (resolved item property)
  | column tableAlias name =>
      exact put_eq_writes _
  | literal value =>
      exact put_eq_writes _
  | parameter name =>
      exact parameter_eq_writes name .caller
  | compare left op right leftWrites rightWrites =>
      obtain ⟨leftResolved, rightResolved⟩ := RelExpr.resolved_compare.mp resolved
      rw [expr, leftWrites leftResolved, rightWrites rightResolved]
      simp only [put_eq_writes, writes_then]
      simp [RelExpr.text, RelExpr.uses, String.append_assoc]
  | and left right leftWrites rightWrites =>
      obtain ⟨leftResolved, rightResolved⟩ := RelExpr.resolved_and.mp resolved
      rw [expr, leftWrites leftResolved, rightWrites rightResolved]
      simp only [put_eq_writes, writes_then]
      simp [RelExpr.text, RelExpr.uses, String.append_assoc]
  | or left right leftWrites rightWrites =>
      obtain ⟨leftResolved, rightResolved⟩ := RelExpr.resolved_or.mp resolved
      rw [expr, leftWrites leftResolved, rightWrites rightResolved]
      simp only [put_eq_writes, writes_then]
      simp [RelExpr.text, RelExpr.uses, String.append_assoc]
  | not operand operandWrites =>
      rw [expr, operandWrites (RelExpr.resolved_not.mp resolved)]
      simp only [put_eq_writes, writes_then]
      simp [RelExpr.text, RelExpr.uses, String.append_assoc]
  | function name args argWrites =>
      have argsWrite : separated expr args =
          writes (String.intercalate ", " (args.map RelExpr.text))
            (args.flatMap RelExpr.uses) :=
        separated_eq_writes fun arg member =>
          argWrites arg member (RelExpr.resolved_function.mp resolved arg member)
      rw [expr, exprs_eq_separated, argsWrite]
      simp only [put_eq_writes, writes_then]
      simp [RelExpr.text, RelExpr.uses, RelExpr.texts_eq_map, RelExpr.usesOfAll_eq_flatMap,
        String.append_assoc]
  | membership operand valueSet search operandWrites =>
      rw [expr, operandWrites (RelExpr.resolved_membership.mp resolved)]
      simp only [put_eq_writes, parameter_eq_writes, writes_then]
      simp [RelExpr.text, RelExpr.uses, String.append_assoc]

end Sql.Writer

namespace Statement

/-- The expressions of a statement, in the order of its text. -/
def expressions
    (s : Statement) :
    List RelExpr :=
  s.projection.map (·.expr) ++ s.joins.map (·.on) ++ s.predicate?.toList
    ++ s.ordering.map (·.expr)

/-- The uses of parameters in a statement, in the order of its text. -/
def uses
    (s : Statement) :
    List StatementParameter :=
  s.expressions.flatMap RelExpr.uses

/-- The text of a table and its alias. -/
def tableText
    (source : AliasedTable) :
    String :=
  Sql.quoteName source.table ++ " AS " ++ Sql.quoteName source.tableAlias

/-- The text of a result column and its name. -/
def columnText
    (item : OutputColumn) :
    String :=
  item.expr.text ++ " AS " ++ Sql.quoteName item.name

/-- The text of a joined table and its condition. -/
def joinText
    (join : JoinedTable) :
    String :=
  " INNER JOIN " ++ tableText join.table ++ " ON " ++ join.on.text

/-- The text of a sort term. -/
def orderText
    (term : OrderTerm) :
    String :=
  term.expr.text ++ if term.descending then " DESC" else ""

/-- The text of a condition on the joined rows. -/
def filterText : Option RelExpr → String
  | some predicate => " WHERE " ++ predicate.text
  | none => ""

/-- The text of an order of the rows. -/
def orderingText : List OrderTerm → String
  | [] => ""
  | terms => " ORDER BY " ++ String.intercalate ", " (terms.map orderText)

/-- The text of a limit on the number of rows. -/
def limitText : Option UInt64 → String
  | some limit => " LIMIT " ++ Decimal.ofInt limit.toNat
  | none => ""

/-- The text of a statement. -/
def text
    (s : Statement) :
    String :=
  "SELECT " ++ String.intercalate ", " (s.projection.map columnText)
    ++ " FROM " ++ tableText s.source
    ++ String.join (s.joins.map joinText)
    ++ filterText s.predicate? ++ orderingText s.ordering ++ limitText s.limit?

end Statement

namespace Sql.Writer

/-- Items that are each written as a text are written one behind the other. -/
theorem forM_eq_writes
    {write : α → Writer Unit}
    {text : α → String}
    {uses : α → List StatementParameter}
    {items : List α}
    (each : ∀ item ∈ items, write item = writes (text item) (uses item)) :
    items.forM write = writes (String.join (items.map text)) (items.flatMap uses) := by
  induction items with
  | nil =>
      exact pure_eq_writes
  | cons item rest inductionHypothesis =>
      obtain ⟨itemWrites, restWrites⟩ := List.forall_mem_cons.mp each
      rw [List.forM_eq_forM] at inductionHypothesis ⊢
      rw [List.forM_cons, itemWrites, inductionHypothesis restWrites, writes_then]
      simp

/-- A table is written with its alias. -/
theorem table_eq_writes
    (source : AliasedTable) :
    table source = writes (Statement.tableText source) [] :=
  put_eq_writes _

/-- A result column is written with the uses of its expression. -/
theorem outputColumn_eq_writes
    {item : OutputColumn}
    (resolved : item.expr.Resolved) :
    outputColumn item = writes (Statement.columnText item) item.expr.uses := by
  rw [outputColumn, expr_eq_writes resolved, put_eq_writes, writes_then]
  simp [Statement.columnText, String.append_assoc]

/-- A joined table is written with the uses of its condition. -/
theorem joinedTable_eq_writes
    {join : JoinedTable}
    (resolved : join.on.Resolved) :
    joinedTable join = writes (Statement.joinText join) join.on.uses := by
  rw [joinedTable, expr_eq_writes resolved, table_eq_writes]
  simp only [put_eq_writes, writes_then]
  unfold Statement.joinText
  simp only [Statement.tableText, String.append_assoc, List.nil_append]

/-- A sort term is written with the uses of its expression. -/
theorem orderTerm_eq_writes
    {term : OrderTerm}
    (resolved : term.expr.Resolved) :
    orderTerm term = writes (Statement.orderText term) term.expr.uses := by
  rw [orderTerm, expr_eq_writes resolved]
  cases descending : term.descending with
  | true =>
      simp only [↓reduceIte, put_eq_writes, writes_then]
      simp [Statement.orderText, descending]
  | false =>
      simp only [Bool.false_eq_true, ↓reduceIte, pure_eq_writes, writes_then]
      simp [Statement.orderText, descending]

/-- Write a condition on the joined rows. -/
def filterClause : Option RelExpr → Writer Unit
  | some predicate => do
      put " WHERE "
      expr predicate
  | none => pure ()

/-- Write an order of the rows. -/
def orderingClause : List OrderTerm → Writer Unit
  | [] => pure ()
  | terms => do
      put " ORDER BY "
      separated orderTerm terms

/-- Write a limit on the number of rows. -/
def limitClause : Option UInt64 → Writer Unit
  | some limit => put (" LIMIT " ++ Decimal.ofInt limit.toNat)
  | none => pure ()

/-- A statement is written clause by clause. -/
theorem statement_eq_clauses
    (s : Statement) :
    statement s = (do
      put "SELECT "
      separated outputColumn s.projection
      put " FROM "
      table s.source
      s.joins.forM joinedTable
      filterClause s.predicate?
      orderingClause s.ordering
      limitClause s.limit?) := by
  unfold statement
  cases s.predicate? <;> cases s.ordering <;> cases s.limit? <;> rfl

/-- The filter clause is written with the uses of the filter, if there is one. -/
theorem filterClause_eq_writes
    {predicate? : Option RelExpr}
    (resolved : ∀ e ∈ predicate?, e.Resolved) :
    filterClause predicate? =
      writes (Statement.filterText predicate?) (predicate?.toList.flatMap RelExpr.uses) := by
  cases predicate? with
  | none => exact pure_eq_writes
  | some predicate =>
      rw [filterClause, expr_eq_writes (resolved predicate rfl), put_eq_writes, writes_then]
      simp [Statement.filterText]

/-- The ordering clause is written with the uses of its terms, in their order. -/
theorem orderingClause_eq_writes
    {terms : List OrderTerm}
    (resolved : ∀ term ∈ terms, term.expr.Resolved) :
    orderingClause terms =
      writes (Statement.orderingText terms) (terms.flatMap (·.expr.uses)) := by
  have termsWrite : separated orderTerm terms =
      writes (String.intercalate ", " (terms.map Statement.orderText))
        (terms.flatMap (·.expr.uses)) :=
    separated_eq_writes fun term member => orderTerm_eq_writes (resolved term member)
  cases terms with
  | nil => exact pure_eq_writes
  | cons first rest =>
      rw [orderingClause, termsWrite, put_eq_writes, writes_then]
      · simp [Statement.orderingText]
      · simp

/-- The limit clause uses no parameter. -/
theorem limitClause_eq_writes
    (limit? : Option UInt64) :
    limitClause limit? = writes (Statement.limitText limit?) [] := by
  cases limit? with
  | none => exact pure_eq_writes
  | some limit => exact put_eq_writes _

/-- A statement without members is written as its text, with its uses of parameters. -/
theorem statement_eq_writes
    {s : Statement}
    (resolved : ∀ e ∈ s.expressions, e.Resolved) :
    statement s = writes s.text s.uses := by
  simp only [Statement.expressions, List.forall_mem_append, List.forall_mem_map] at resolved
  obtain ⟨⟨⟨columnsResolved, joinsResolved⟩, predicateResolved⟩, orderingResolved⟩ := resolved
  have columnsWrite : separated outputColumn s.projection =
      writes (String.intercalate ", " (s.projection.map Statement.columnText))
        (s.projection.flatMap (·.expr.uses)) :=
    separated_eq_writes fun item member => outputColumn_eq_writes (columnsResolved item member)
  have joinsWrite : s.joins.forM joinedTable =
      writes (String.join (s.joins.map Statement.joinText)) (s.joins.flatMap (·.on.uses)) :=
    forM_eq_writes fun join member => joinedTable_eq_writes (joinsResolved join member)
  rw [statement_eq_clauses, columnsWrite, joinsWrite, table_eq_writes,
    filterClause_eq_writes (by simpa using predicateResolved),
    orderingClause_eq_writes orderingResolved,
    limitClause_eq_writes]
  simp only [put_eq_writes, writes_then]
  congr 1
  · unfold Statement.text
    simp only [String.append_assoc]
  · simp [Statement.uses, Statement.expressions, List.flatMap_map]

end Sql.Writer

namespace Statement

/-- Writing a statement without members gives its text and the list of its parameters. -/
theorem write_eq
    {s : Statement}
    (resolved : ∀ e ∈ s.expressions, e.Resolved) :
    s.write = (Sql.listUses [] s.uses).map (⟨s.text, ·⟩) := by
  rw [write, Sql.Writer.statement_eq_writes resolved, Sql.Writer.writes]
  cases Sql.listUses [] s.uses <;> simp [Except.map]

end Statement

end FullTextQuery
