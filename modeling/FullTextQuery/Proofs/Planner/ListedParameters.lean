import FullTextQuery.Proofs.Planner.Statement
import FullTextQuery.Proofs.Sql.Parameters

namespace FullTextQuery

/-!
# The parameters of a written statement

A statement can be written exactly if it has no members left and no name stands for a value
of the caller and for a value set.  The parameters that are then listed are the placeholders
of its text: each once, in the order of their first places, and as value sets exactly those
that membership tests read.
-/

/-- A piece of a statement's text: the placeholder of a parameter, or anything else. -/
inductive TextPiece where
  | plain (text : String)
  | placeholder (name : String)
  deriving Repr, DecidableEq

namespace TextPiece

/-- How a piece is written. -/
def text : TextPiece → String
  | .plain text => text
  | .placeholder name => ":" ++ name

/-- The name of a placeholder. -/
def name? : TextPiece → Option String
  | .plain _ => none
  | .placeholder name => some name

/-- The text of some pieces. -/
def textOfAll
    (pieces : List TextPiece) :
    String :=
  String.join (pieces.map text)

/-- The names of the placeholders among some pieces. -/
def names
    (pieces : List TextPiece) :
    List String :=
  pieces.filterMap name?

@[simp] theorem textOfAll_nil :
    textOfAll [] = "" :=
  rfl

@[simp] theorem textOfAll_cons
    (piece : TextPiece)
    (pieces : List TextPiece) :
    textOfAll (piece :: pieces) = piece.text ++ textOfAll pieces := by
  simp [textOfAll]

@[simp] theorem textOfAll_append
    (first second : List TextPiece) :
    textOfAll (first ++ second) = textOfAll first ++ textOfAll second := by
  simp [textOfAll]

@[simp] theorem names_nil :
    names [] = [] :=
  rfl

@[simp] theorem names_plain_cons
    (text : String)
    (pieces : List TextPiece) :
    names (.plain text :: pieces) = names pieces :=
  rfl

@[simp] theorem names_placeholder_cons
    (name : String)
    (pieces : List TextPiece) :
    names (.placeholder name :: pieces) = name :: names pieces :=
  rfl

@[simp] theorem names_append
    (first second : List TextPiece) :
    names (first ++ second) = names first ++ names second :=
  List.filterMap_append

/-- The names among pieces are those of the placeholders. -/
theorem mem_names
    {pieces : List TextPiece}
    {name : String} :
    name ∈ names pieces ↔ .placeholder name ∈ pieces := by
  rw [names, List.mem_filterMap]
  constructor
  · rintro ⟨piece | placeholder, isPiece, isName⟩
    · cases isName
    · rwa [← Option.some.inj isName]
  · exact fun isPiece => ⟨_, isPiece, rfl⟩

/-- Pieces of some items with commas between the items. -/
def separated
    (items : List (List TextPiece)) :
    List TextPiece :=
  [.plain ", "].intercalate items

@[simp] theorem textOfAll_separated
    (items : List (List TextPiece)) :
    textOfAll (separated items) = String.intercalate ", " (items.map textOfAll) := by
  induction items with
  | nil => rfl
  | cons item rest inductionHypothesis =>
      cases rest with
      | nil => simp [separated]
      | cons next others =>
          rw [separated] at inductionHypothesis ⊢
          simp [String.intercalate_cons_cons, inductionHypothesis, text, String.append_assoc]

@[simp] theorem names_separated
    (items : List (List TextPiece)) :
    names (separated items) = items.flatMap names := by
  induction items with
  | nil => rfl
  | cons item rest inductionHypothesis =>
      cases rest with
      | nil => simp [separated]
      | cons next others =>
          rw [separated] at inductionHypothesis ⊢
          simp [inductionHypothesis]

end TextPiece

namespace RelExpr

mutual

/-- The pieces of the text of an expression. -/
def pieces : RelExpr → List TextPiece
  | .member .. => []
  | .column tableAlias name => [.plain (Sql.quoteName tableAlias ++ "." ++ Sql.quoteName name)]
  | .literal value => [.plain (Sql.writeLiteral value)]
  | .parameter name => [.placeholder name]
  | .compare left op right =>
      .plain "(" :: pieces left ++ .plain (" " ++ Sql.writeOperator op right ++ " ") ::
        pieces right ++ [.plain ")"]
  | .and left right => .plain "(" :: pieces left ++ .plain " AND " :: pieces right ++ [.plain ")"]
  | .or left right => .plain "(" :: pieces left ++ .plain " OR " :: pieces right ++ [.plain ")"]
  | .not operand => .plain "(NOT " :: pieces operand ++ [.plain ")"]
  | .function name args =>
      .plain (Sql.upperName name ++ "(") :: TextPiece.separated (piecesOfEach args) ++ [.plain ")"]
  | .membership operand valueSet _ =>
      pieces operand ++ [.plain " IN rarray(", .placeholder valueSet, .plain ")"]

/-- The pieces of the texts of expressions. -/
def piecesOfEach : List RelExpr → List (List TextPiece)
  | [] => []
  | e :: es => pieces e :: piecesOfEach es

end

/-- Arguments are taken to pieces one by one. -/
theorem piecesOfEach_eq_map
    (es : List RelExpr) :
    piecesOfEach es = es.map pieces := by
  induction es with
  | nil => rfl
  | cons e es inductionHypothesis => simp [piecesOfEach, inductionHypothesis]

/-- The pieces of an expression make its text. -/
@[simp] theorem textOfAll_pieces
    (e : RelExpr) :
    TextPiece.textOfAll e.pieces = e.text := by
  induction e with
  | member | column | literal | parameter => simp [pieces, text, TextPiece.text]
  | compare left op right leftText rightText | and left right leftText rightText
  | or left right leftText rightText =>
      simp [pieces, text, TextPiece.text, leftText, rightText, String.append_assoc]
  | not operand operandText | membership operand _ _ operandText =>
      simp [pieces, text, TextPiece.text, operandText, String.append_assoc]
  | function name args argsText =>
      have argTexts : (args.map pieces).map TextPiece.textOfAll = args.map text := by
        rw [List.map_map]
        exact List.map_congr_left argsText
      simp only [pieces, text, piecesOfEach_eq_map, texts_eq_map, TextPiece.textOfAll_cons,
        TextPiece.textOfAll_append, TextPiece.textOfAll_separated, argTexts]
      simp [TextPiece.text, String.append_assoc]

/-- The placeholders of an expression are the parameters that it uses. -/
@[simp] theorem names_pieces
    (e : RelExpr) :
    TextPiece.names e.pieces = e.uses.map (·.name) := by
  induction e with
  | member | column | literal | parameter => simp [pieces, uses]
  | compare left op right leftNames rightNames | and left right leftNames rightNames
  | or left right leftNames rightNames =>
      simp [pieces, uses, leftNames, rightNames]
  | not operand operandNames | membership operand _ _ operandNames =>
      simp [pieces, uses, operandNames]
  | function name args argsNames =>
      simp [pieces, uses, piecesOfEach_eq_map, usesOfAll_eq_flatMap, List.flatMap_map,
        List.map_flatMap, List.flatMap_congr argsNames]

/-- A value of the caller is used where a part is its parameter. -/
theorem caller_mem_uses
    {e : RelExpr}
    {name : String} :
    ⟨name, .caller⟩ ∈ e.uses ↔ .parameter name ∈ e.nodes := by
  induction e with
  | member | column | literal | parameter => simp [uses, nodes]
  | compare left op right leftUses rightUses | and left right leftUses rightUses
  | or left right leftUses rightUses =>
      simp [uses, nodes, leftUses, rightUses]
  | not operand operandUses | membership operand _ _ operandUses =>
      simp [uses, nodes, operandUses]
  | function function args argsUses =>
      simp only [uses, nodes, usesOfAll_eq_flatMap, nodesOfAll_eq_flatMap, List.mem_flatMap,
        List.mem_cons, reduceCtorEq, false_or]
      exact exists_congr fun arg => and_congr_right (argsUses arg)

/-- A value set is used where a membership test reads it. -/
theorem search_mem_uses
    {e : RelExpr}
    {name : String} :
    ⟨name, .search⟩ ∈ e.uses ↔ ∃ test ∈ e.memberships, test.parameter = name := by
  induction e with
  | member | column | literal | parameter => simp [uses, memberships]
  | compare left op right leftUses rightUses | and left right leftUses rightUses
  | or left right leftUses rightUses =>
      simp [uses, memberships, leftUses, rightUses, or_and_right, exists_or]
  | not operand operandUses => simp [uses, memberships, operandUses]
  | membership operand _ _ operandUses =>
      simp [uses, memberships, operandUses, or_comm, eq_comm]
  | function function args argsUses =>
      simp only [uses, memberships, usesOfAll_eq_flatMap, membershipsList_eq_flatMap,
        List.mem_flatMap]
      constructor
      · rintro ⟨arg, isArg, isUsed⟩
        obtain ⟨test, isTest, isName⟩ := (argsUses arg isArg).mp isUsed
        exact ⟨test, ⟨arg, isArg, isTest⟩, isName⟩
      · rintro ⟨test, ⟨arg, isArg, isTest⟩, isName⟩
        exact ⟨arg, isArg, (argsUses arg isArg).mpr ⟨test, isTest, isName⟩⟩

end RelExpr

namespace Sql

/-- Listing a use puts its name behind the names that are listed, unless it is one of them. -/
theorem names_of_listUse
    {listed after : List StatementParameter}
    {use : StatementParameter}
    (success : listUse listed use = .ok after) :
    after.map (·.name) =
      if use.name ∈ listed.map (·.name) then listed.map (·.name)
      else listed.map (·.name) ++ [use.name] := by
  unfold listUse at success
  split at success
  case h_1 earlier found =>
    have isListed : use.name ∈ listed.map (·.name) :=
      List.mem_map.mpr ⟨earlier, List.mem_of_find?_eq_some found,
        by simpa using List.find?_some found⟩
    split at success
    · rw [if_pos isListed, Except.ok.inj success]
    · cases success
  case h_2 notFound =>
    have isNew : use.name ∉ listed.map (·.name) := by
      simpa using notFound
    rw [if_neg isNew, ← Except.ok.inj success, List.map_append, List.map_singleton]

/-- The names that are listed are those of the uses, each at its first place. -/
theorem names_of_listUses
    {listed uses after : List StatementParameter}
    (success : listUses listed uses = .ok after) :
    after.map (·.name) =
      listed.map (·.name) ++ ((uses.map (·.name)).removeAll (listed.map (·.name))).eraseDups := by
  induction uses generalizing listed with
  | nil =>
      obtain rfl : listed = after := Except.ok.inj success
      simp
  | cons use rest inductionHypothesis =>
      obtain ⟨between, useListed, restListed⟩ := Except.bind_eq_ok.mp success
      rw [inductionHypothesis restListed, names_of_listUse useListed]
      by_cases isListed : use.name ∈ listed.map (·.name)
      · rw [if_pos isListed, List.map_cons, List.cons_removeAll]
        simp [isListed]
      · have others : (rest.map (·.name)).removeAll (listed.map (·.name) ++ [use.name]) =
            ((rest.map (·.name)).removeAll (listed.map (·.name))).filter (!· == use.name) := by
          rw [List.removeAll, List.removeAll, List.filter_filter]
          exact List.filter_congr fun name _ => by
            rw [Bool.and_comm]
            simp [← Bool.beq_eq_decide_eq]
        rw [if_neg isListed, List.map_cons, List.cons_removeAll, others, List.append_assoc]
        simp [isListed, List.eraseDups_cons]

namespace Writer

/-- Whether something can be written, behind some text and parameters at least. -/
def CanWrite
    (writer : Writer α) :
    Prop :=
  ∃ written result, writer written = .ok result

/-- What can be written as a whole can be written part by part. -/
theorem CanWrite.of_bind
    {first : Writer α}
    {next : α → Writer β}
    (canWrite : CanWrite (first >>= next)) :
    CanWrite first ∧ ∃ a, CanWrite (next a) := by
  obtain ⟨written, result, success⟩ := canWrite
  obtain ⟨⟨a, between⟩, firstWrites, nextWrites⟩ := Except.bind_eq_ok.mp success
  exact ⟨⟨written, _, firstWrites⟩, a, between, result, nextWrites⟩

/-- Items that can be written with commas between them can each be written. -/
theorem CanWrite.of_separated
    {write : α → Writer Unit}
    {items : List α}
    (canWrite : CanWrite (separated write items)) :
    ∀ item ∈ items, CanWrite (write item) := by
  induction items with
  | nil => simp
  | cons item rest inductionHypothesis =>
      cases rest with
      | nil => simpa [separated] using canWrite
      | cons next others =>
          rw [separated] at canWrite
          · obtain ⟨itemWritten, _, restWritten⟩ := canWrite.of_bind
            obtain ⟨_, _, restWritten⟩ := restWritten.of_bind
            exact List.forall_mem_cons.mpr ⟨itemWritten, inductionHypothesis restWritten⟩
          · simp

/-- Items that can be written one behind the other can each be written. -/
theorem CanWrite.of_forM
    {write : α → Writer Unit}
    {items : List α}
    (canWrite : CanWrite (items.forM write)) :
    ∀ item ∈ items, CanWrite (write item) := by
  induction items with
  | nil => simp
  | cons item rest inductionHypothesis =>
      obtain ⟨itemWritten, _, restWritten⟩ := canWrite.of_bind
      exact List.forall_mem_cons.mpr ⟨itemWritten, inductionHypothesis restWritten⟩

/-- An expression that can be written has no members. -/
theorem CanWrite.resolved
    {e : RelExpr}
    (canWrite : CanWrite (expr e)) :
    e.Resolved := by
  induction e with
  | member item property =>
      obtain ⟨_, _, success⟩ := canWrite
      cases success
  | column | literal | parameter =>
      simp [RelExpr.Resolved, RelExpr.nodes]
  | compare left op right leftResolved rightResolved
  | and left right leftResolved rightResolved
  | or left right leftResolved rightResolved =>
      obtain ⟨_, _, behind⟩ := canWrite.of_bind
      obtain ⟨leftWritten, _, behind⟩ := behind.of_bind
      obtain ⟨_, _, behind⟩ := behind.of_bind
      obtain ⟨rightWritten, _⟩ := behind.of_bind
      simpa using And.intro (leftResolved leftWritten) (rightResolved rightWritten)
  | not operand operandResolved =>
      obtain ⟨_, _, behind⟩ := canWrite.of_bind
      exact RelExpr.resolved_not.mpr (operandResolved behind.of_bind.1)
  | membership operand valueSet search operandResolved =>
      exact RelExpr.resolved_membership.mpr (operandResolved canWrite.of_bind.1)
  | function name args argsResolved =>
      obtain ⟨_, _, behind⟩ := canWrite.of_bind
      obtain ⟨argsWritten, _⟩ := behind.of_bind
      rw [exprs_eq_separated] at argsWritten
      exact RelExpr.resolved_function.mpr fun arg isArg =>
        argsResolved arg isArg (argsWritten.of_separated arg isArg)

/-- A statement that can be written has no members. -/
theorem CanWrite.resolved_of_statement
    {s : Statement}
    (canWrite : CanWrite (statement s)) :
    ∀ e ∈ s.expressions, e.Resolved := by
  rw [statement_eq_clauses] at canWrite
  obtain ⟨_, _, behind⟩ := canWrite.of_bind
  obtain ⟨columnsWritten, _, behind⟩ := behind.of_bind
  obtain ⟨_, _, behind⟩ := behind.of_bind
  obtain ⟨_, _, behind⟩ := behind.of_bind
  obtain ⟨joinsWritten, _, behind⟩ := behind.of_bind
  obtain ⟨filterWritten, _, behind⟩ := behind.of_bind
  obtain ⟨orderingWritten, _⟩ := behind.of_bind
  simp only [Statement.expressions, List.forall_mem_append, List.forall_mem_map]
  refine ⟨⟨⟨?columns, ?joins⟩, ?predicate⟩, ?ordering⟩
  case columns =>
    exact fun item isItem => (columnsWritten.of_separated item isItem).of_bind.1.resolved
  case joins =>
    intro join isJoin
    obtain ⟨_, _, behind⟩ := (joinsWritten.of_forM join isJoin).of_bind
    obtain ⟨_, _, behind⟩ := behind.of_bind
    obtain ⟨_, _, onWritten⟩ := behind.of_bind
    exact onWritten.resolved
  case predicate =>
    intro predicate isPredicate
    rw [Option.mem_toList.mp isPredicate] at filterWritten
    obtain ⟨_, _, predicateWritten⟩ := filterWritten.of_bind
    exact predicateWritten.resolved
  case ordering =>
    intro term isTerm
    cases isOrdering : s.ordering with
    | nil => simp [isOrdering] at isTerm
    | cons first rest =>
        rw [isOrdering] at orderingWritten isTerm
        obtain ⟨_, _, termsWritten⟩ := orderingWritten.of_bind
        exact (termsWritten.of_separated term isTerm).of_bind.1.resolved

end Writer

end Sql

namespace Statement

open TextPiece

/-- The pieces of a result column's text. -/
def columnPieces
    (item : OutputColumn) :
    List TextPiece :=
  item.expr.pieces ++ [.plain (" AS " ++ Sql.quoteName item.name)]

/-- The pieces of a joined table's text. -/
def joinPieces
    (join : JoinedTable) :
    List TextPiece :=
  .plain (" INNER JOIN " ++ tableText join.table ++ " ON ") :: join.on.pieces

/-- The pieces of a sort term's text. -/
def orderPieces
    (term : OrderTerm) :
    List TextPiece :=
  term.expr.pieces ++ [.plain (if term.descending then " DESC" else "")]

/-- The pieces of the text of a condition on the joined rows. -/
def filterPieces : Option RelExpr → List TextPiece
  | some predicate => .plain " WHERE " :: predicate.pieces
  | none => []

/-- The pieces of the text of an order of the rows. -/
def orderingPieces : List OrderTerm → List TextPiece
  | [] => []
  | terms => .plain " ORDER BY " :: separated (terms.map orderPieces)

/-- The pieces of the text of a statement: projection, joins, predicate and ordering. -/
def pieces
    (s : Statement) :
    List TextPiece :=
  .plain "SELECT " :: separated (s.projection.map columnPieces)
    ++ .plain (" FROM " ++ tableText s.source) :: s.joins.flatMap joinPieces
    ++ filterPieces s.predicate? ++ orderingPieces s.ordering ++ [.plain (limitText s.limit?)]

/-- The pieces of a statement make its text. -/
theorem textOfAll_pieces
    (s : Statement) :
    textOfAll s.pieces = s.text := by
  have columns : (s.projection.map columnPieces).map textOfAll = s.projection.map columnText := by
    rw [List.map_map]
    refine List.map_congr_left fun item _ => ?_
    simp [columnPieces, columnText, TextPiece.text, String.append_assoc]
  have joins : textOfAll (s.joins.flatMap joinPieces) = String.join (s.joins.map joinText) := by
    have each : ∀ join : JoinedTable, textOfAll (joinPieces join) = joinText join := by
      intro join
      unfold joinText
      simp [joinPieces, TextPiece.text, String.append_assoc]
    induction s.joins with
    | nil => rfl
    | cons join rest inductionHypothesis => simp [inductionHypothesis, each]
  have filter : textOfAll (filterPieces s.predicate?) = filterText s.predicate? := by
    cases s.predicate? <;> simp [filterPieces, filterText, TextPiece.text]
  have ordering : textOfAll (orderingPieces s.ordering) = orderingText s.ordering := by
    have terms : (s.ordering.map orderPieces).map textOfAll = s.ordering.map orderText := by
      rw [List.map_map]
      refine List.map_congr_left fun term _ => ?_
      simp [orderPieces, orderText, TextPiece.text]
    cases isOrdering : s.ordering with
    | nil => rfl
    | cons first rest =>
        rw [isOrdering] at terms
        rw [orderingPieces, orderingText, textOfAll_cons, textOfAll_separated, terms]
        · rfl
        · simp
        · simp
  unfold text
  simp only [pieces, textOfAll_append, textOfAll_cons, textOfAll_separated, columns, joins,
    filter, ordering, textOfAll_nil, TextPiece.text, String.append_assoc, String.append_empty]

/-- The placeholders of a statement are the parameters that it uses. -/
theorem names_pieces
    (s : Statement) :
    names s.pieces = s.uses.map (·.name) := by
  have columns : (s.projection.map columnPieces).flatMap names =
      s.projection.flatMap (·.expr.uses.map (·.name)) := by
    simp [List.flatMap_map, columnPieces]
  have joins : names (s.joins.flatMap joinPieces) = s.joins.flatMap (·.on.uses.map (·.name)) := by
    induction s.joins with
    | nil => rfl
    | cons join rest inductionHypothesis => simp [inductionHypothesis, joinPieces]
  have filter : names (filterPieces s.predicate?) =
      s.predicate?.toList.flatMap (·.uses.map (·.name)) := by
    cases s.predicate? <;> simp [filterPieces]
  have ordering : names (orderingPieces s.ordering) =
      s.ordering.flatMap (·.expr.uses.map (·.name)) := by
    cases s.ordering with
    | nil => rfl
    | cons first rest => simp [orderingPieces, List.flatMap_map, orderPieces]
  simp only [pieces, names_append, names_plain_cons, names_separated, columns, joins, filter,
    ordering, names_nil, uses, expressions, List.map_append, List.map_flatMap,
    List.flatMap_append, List.flatMap_map, List.append_nil, List.append_assoc]

/-- How a statement is written, and which parameters are listed. -/
structure ListsParameters
    (s : Statement)
    (written : StatementText) :
    Prop where
  text : written.text = textOfAll s.pieces
  distinct : (written.parameters.map (·.name)).Nodup
  order : written.parameters.map (·.name) = (names s.pieces).eraseDups
  all : ∀ name, (∃ parameter ∈ written.parameters, parameter.name = name) ↔
    .placeholder name ∈ s.pieces
  valueSets : ∀ parameter ∈ written.parameters, parameter.supplier = .search ↔
    ∃ test ∈ s.memberships, test.parameter = parameter.name

/-- Whether a name is that of a caller's value somewhere in a statement. -/
def ReadsCaller
    (s : Statement)
    (name : String) :
    Prop :=
  ∃ e ∈ s.expressions, .parameter name ∈ e.nodes

/-- Whether a name is that of a value set somewhere in a statement. -/
def ReadsValueSet
    (s : Statement)
    (name : String) :
    Prop :=
  ∃ test ∈ s.memberships, test.parameter = name

/-- The parameters of the caller that are used are those that a statement reads. -/
theorem caller_mem_uses
    {s : Statement}
    {name : String} :
    ⟨name, .caller⟩ ∈ s.uses ↔ s.ReadsCaller name := by
  simp [uses, ReadsCaller, RelExpr.caller_mem_uses]

/-- The value sets that are used are those that a statement reads. -/
theorem search_mem_uses
    {s : Statement}
    {name : String} :
    ⟨name, .search⟩ ∈ s.uses ↔ s.ReadsValueSet name := by
  simp only [uses, ReadsValueSet, memberships, List.mem_flatMap, RelExpr.search_mem_uses]
  constructor
  · rintro ⟨e, isPart, test, isTest, isName⟩
    exact ⟨test, ⟨e, isPart, isTest⟩, isName⟩
  · rintro ⟨test, ⟨e, isPart, isTest⟩, isName⟩
    exact ⟨e, isPart, test, isTest, isName⟩

/-- The uses of a statement can be listed if no name stands for two suppliers. -/
theorem exists_listUses_iff
    {s : Statement} :
    (∃ parameters, Sql.listUses [] s.uses = .ok parameters) ↔
      ∀ name, ¬(s.ReadsCaller name ∧ s.ReadsValueSet name) := by
  rw [Sql.exists_listUses_iff Sql.distinct_nil, List.nil_append]
  constructor
  · rintro agree name ⟨readsCaller, readsValueSet⟩
    cases agree _ (caller_mem_uses.mpr readsCaller) _ (search_mem_uses.mpr readsValueSet) rfl
  · rintro apart ⟨name, supplier⟩ isUsed ⟨other, otherSupplier⟩ otherUsed (rfl : name = other)
    cases supplier <;> cases otherSupplier
    case caller.caller => rfl
    case search.search => rfl
    case caller.search =>
      exact absurd ⟨caller_mem_uses.mp isUsed, search_mem_uses.mp otherUsed⟩ (apart name)
    case search.caller =>
      exact absurd ⟨caller_mem_uses.mp otherUsed, search_mem_uses.mp isUsed⟩ (apart name)

/--
A statement can be written exactly if no member is left in it and no name stands for a value
of the caller and for a value set.  Then its placeholders are listed, each once and in the
order of their first places, and as value sets exactly those that membership tests read.
-/
theorem exists_write_iff
    (s : Statement) :
    ((∃ written, s.write = .ok written) ↔
      (∀ e ∈ s.expressions, ∀ item property, .member item property ∉ e.nodes) ∧
        ∀ name, ¬(s.ReadsCaller name ∧ s.ReadsValueSet name)) ∧
      ∀ written, s.write = .ok written → s.ListsParameters written := by
  have resolved : ∀ written, s.write = .ok written → ∀ e ∈ s.expressions, e.Resolved := by
    intro written success
    obtain ⟨result, writes, _⟩ := Except.map_eq_ok.mp success
    exact Sql.Writer.CanWrite.resolved_of_statement ⟨_, result, writes⟩
  constructor
  · constructor
    · rintro ⟨written, success⟩
      have noMembers := resolved written success
      rw [write_eq noMembers] at success
      obtain ⟨parameters, listed, _⟩ := Except.map_eq_ok.mp success
      exact ⟨noMembers, exists_listUses_iff.mp ⟨parameters, listed⟩⟩
    · rintro ⟨noMembers, apart⟩
      obtain ⟨parameters, listed⟩ := exists_listUses_iff.mpr apart
      exact ⟨⟨s.text, parameters⟩, by rw [write_eq noMembers, listed]; rfl⟩
  · intro written success
    rw [write_eq (resolved written success)] at success
    obtain ⟨parameters, listed, rfl⟩ := Except.map_eq_ok.mp success
    obtain ⟨distinct, areUses⟩ := Sql.listUses_eq_ok Sql.distinct_nil listed
    have inOrder : parameters.map (·.name) = (names s.pieces).eraseDups := by
      rw [Sql.names_of_listUses listed, names_pieces]
      simp [List.removeAll]
    constructor
    case text => exact (textOfAll_pieces s).symm
    case distinct => exact distinct
    case order => exact inOrder
    case all =>
      intro name
      rw [← mem_names, ← List.mem_eraseDups, ← inOrder, List.mem_map]
    case valueSets =>
      rintro ⟨name, supplier⟩ isListed
      have isUsed := (areUses _).mp isListed
      simp only [List.not_mem_nil, false_or] at isUsed
      change supplier = .search ↔ s.ReadsValueSet name
      constructor
      · rintro rfl
        exact search_mem_uses.mp isUsed
      · intro isRead
        have alsoListed := (areUses _).mpr (.inr (search_mem_uses.mpr isRead))
        exact congrArg (·.supplier) (distinct.eq_of_name_eq isListed alsoListed rfl)

/-- Rows whose name is a value of the caller or found by a search, in the order of that value. -/
def namedOrFound : Statement where
  projection := [⟨.column "c" "Id", "Id"⟩]
  source := ⟨"Customers", "c"⟩
  predicate? := some (.or
    (.compare (.column "c" "Name") .eq (.parameter "name"))
    (.membership (.column "c" "Id") "found" 1))
  ordering := [⟨.parameter "name", false⟩]

/-- A value of the caller that is used twice and a value set are listed. -/
theorem listsParameters_namedOrFound :
    ∃ written, namedOrFound.write = .ok written ∧ namedOrFound.ListsParameters written := by
  have isWritten : namedOrFound.write.toOption.isSome := by
    decide +kernel
  obtain ⟨written, success⟩ := Except.exists_eq_ok_iff.mpr isWritten
  exact ⟨written, success, (exists_write_iff namedOrFound).2 written success⟩

end Statement

end FullTextQuery
