import FullTextQuery.Error
import FullTextQuery.Query.Display
import FullTextQuery.Relational.Statement

namespace FullTextQuery

/-!
# Writing statements

A statement becomes text with named parameters.  Identifiers are quoted, every
operator but a membership test has parentheses of its own, and a comparison
with a literal null on the right asks for identity with null.  A parameter must
not be both a caller value and a value set.
-/

namespace Sql

/-- An identifier in double quotes. -/
def quoteName
    (name : String) :
    String :=
  String.ofList ('"' :: Expr.doubled '"' name.toList ++ ['"'])

/-- A text literal in single quotes. -/
def quoteText
    (text : String) :
    String :=
  String.ofList ('\'' :: Expr.doubled '\'' text.toList ++ ['\''])

/-- The text of a literal. -/
def writeLiteral : Value → String
  | .null => "NULL"
  | .integer n => Decimal.ofInt n.toInt
  | .real x => x.toLiteral
  | .text s => quoteText s

/-- The operator between two operands. -/
def writeOperator
    (op : Comparison)
    (right : RelExpr) :
    String :=
  match op, right with
  | .eq, .literal .null => "IS"
  | .notEq, .literal .null => "IS NOT"
  | op, _ => op.symbol

/-- A name in upper case, ASCII letters only. -/
def upperName
    (name : String) :
    String :=
  String.ofList (name.toList.map Char.toUpper)

/-- Writing adds text and parameters, or fails. -/
abbrev Writer : Type → Type :=
  StateT StatementText (Except Error)

namespace Writer

/-- Add text. -/
def put
    (text : String) :
    Writer Unit :=
  fun written => .ok ((), { written with text := written.text ++ text })

/-- Fail. -/
def refuse
    (error : Error) :
    Writer α :=
  fun _ => .error error

/-- Add a parameter, which is listed at its first use. -/
def parameter
    (name : String)
    (supplier : Supplier) :
    Writer Unit :=
  fun written =>
    let placed := { written with text := written.text ++ ":" ++ name }
    match written.parameters.find? (·.name == name) with
    | some listed =>
        if listed.supplier = supplier then .ok ((), placed)
        else .error (.plan (.parameterOfTwoSources name))
    | none => .ok ((), { placed with parameters := written.parameters ++ [⟨name, supplier⟩] })

mutual

/-- Write an expression. -/
def expr : RelExpr → Writer Unit
  | .member item property => refuse (.invariant (.unresolvedMember item property))
  | .column tableAlias column => put (quoteName tableAlias ++ "." ++ quoteName column)
  | .literal value => put (writeLiteral value)
  | .parameter name => parameter name .caller
  | .compare left op right => do
      put "("
      expr left
      put (" " ++ writeOperator op right ++ " ")
      expr right
      put ")"
  | .and left right => do
      put "("
      expr left
      put " AND "
      expr right
      put ")"
  | .or left right => do
      put "("
      expr left
      put " OR "
      expr right
      put ")"
  | .not operand => do
      put "(NOT "
      expr operand
      put ")"
  | .function name args => do
      put (upperName name ++ "(")
      exprs args
      put ")"
  | .membership operand name _ => do
      expr operand
      put " IN rarray("
      parameter name .search
      put ")"

/-- Write expressions with commas between them. -/
def exprs : List RelExpr → Writer Unit
  | [] => pure ()
  | [arg] => expr arg
  | arg :: args => do
      expr arg
      put ", "
      exprs args

end

/-- Write a table and its alias. -/
def table
    (source : AliasedTable) :
    Writer Unit :=
  put (quoteName source.table ++ " AS " ++ quoteName source.tableAlias)

/-- Write a result column and its name. -/
def outputColumn
    (item : OutputColumn) :
    Writer Unit := do
  expr item.expr
  put (" AS " ++ quoteName item.name)

/-- Write a joined table and its condition. -/
def joinedTable
    (join : JoinedTable) :
    Writer Unit := do
  put " INNER JOIN "
  table join.table
  put " ON "
  expr join.on

/-- Write a sort term. -/
def orderTerm
    (term : OrderTerm) :
    Writer Unit := do
  expr term.expr
  if term.descending then
    put " DESC"

/-- Write items with commas between them. -/
def separated
    (write : α → Writer Unit) :
    List α → Writer Unit
  | [] => pure ()
  | [item] => write item
  | item :: items => do
      write item
      put ", "
      separated write items

/-- Write a statement. -/
def statement
    (s : Statement) :
    Writer Unit := do
  put "SELECT "
  separated outputColumn s.projection
  put " FROM "
  table s.source
  s.joins.forM joinedTable
  match s.predicate? with
  | some predicate => do
      put " WHERE "
      expr predicate
  | none => pure ()
  match s.ordering with
  | [] => pure ()
  | terms => do
      put " ORDER BY "
      separated orderTerm terms
  match s.limit? with
  | some limit => put (" LIMIT " ++ Decimal.ofInt limit.toNat)
  | none => pure ()

end Writer

end Sql

namespace Statement

/-- The text and the parameters of a statement. -/
def write
    (s : Statement) :
    Except Error StatementText :=
  (·.2) <$> Sql.Writer.statement s ⟨"", []⟩

end Statement

end FullTextQuery
