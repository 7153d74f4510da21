import FullTextQuery.Sql.Term
import FullTextQuery.Sql.Token
import FullTextQuery.Sql.Writer

namespace FullTextQuery.Sql

/-!
# Reading statements

Tokens become a selection.  Operators bind, from loosest to tightest: `OR`,
`AND`, `NOT`, then `=`, `<>`, `IS`, `IS NOT`, `LIKE` and `IN` on one level, then
`<`, `<=`, `>` and `>=`; operators of one level group to the left.  A text that is
no selection of the kind that statements are written in is not read.
-/

namespace Reader

/--
The words that are no names, in upper case: those that statements are written with,
and behind them those that can stand neither for a column nor before the arguments
of a call.  A word that is a name in one of these places only, such as `CAST`, is
among them too; names are written with quotes.
-/
def keywords : List String :=
  ["SELECT", "AS", "FROM", "INNER", "JOIN", "ON", "WHERE", "ORDER", "BY", "DESC", "LIMIT",
    "AND", "OR", "NOT", "IS", "LIKE", "IN", "NULL",
    "ADD", "ALL", "ALTER", "AUTOINCREMENT", "BETWEEN", "CASE", "CAST", "CHECK", "COLLATE",
    "COMMIT", "CONSTRAINT", "CREATE", "CURRENT_DATE", "CURRENT_TIME", "CURRENT_TIMESTAMP",
    "DEFAULT", "DEFERRABLE", "DELETE", "DISTINCT", "DROP", "ELSE", "ESCAPE", "EXCEPT",
    "EXISTS", "FOREIGN", "GROUP", "HAVING", "INDEX", "INSERT", "INTERSECT", "INTO",
    "ISNULL", "NOTHING", "NOTNULL", "PRIMARY", "RAISE", "REFERENCES", "RETURNING", "SET",
    "TABLE", "THEN", "TO", "TRANSACTION", "UNION", "UNIQUE", "UPDATE", "USING", "VALUES",
    "WHEN"]

/-- The keyword that a token is. -/
def keyword? : Token → Option String
  | .word word => if keywords.contains (upperName word) then some (upperName word) else none
  | _ => none

/-- The rest behind a given keyword. -/
def afterKeyword?
    (keyword : String) :
    List Token → Option (List Token)
  | [] => none
  | token :: rest => if keyword? token = some keyword then some rest else none

/-- The rest behind a given sign. -/
def afterSign?
    (expected : Sign) :
    List Token → Option (List Token)
  | .sign sign :: rest => if sign = expected then some rest else none
  | _ => none

/-- What an infix token does with the expression before it. -/
inductive Infix where
  | compare (op : Operator)
  | and
  | or
  | inArray
  deriving Repr, DecidableEq

namespace Infix

/-- How tightly an infix token binds. -/
def level : Infix → Nat
  | .or => 1
  | .and => 2
  | .compare .less | .compare .lessEqual | .compare .greater | .compare .greaterEqual => 4
  | .compare _ | .inArray => 3

/-- The expression over two operands; a membership test has its right side elsewhere. -/
def combine
    (infixToken : Infix)
    (left right : Term) :
    Term :=
  match infixToken with
  | .compare op => .compare left op right
  | .and => .and left right
  | .or => .or left right
  | .inArray => left

end Infix

/-- The loosest level. -/
def loosest : Nat := 1

/-- The level of what a negation applies to. -/
def negated : Nat := 3

/-- The infix token at the front. -/
def infix? : List Token → Option (Infix × List Token)
  | .sign .equal :: rest => some (.compare .equal, rest)
  | .sign .notEqual :: rest => some (.compare .notEqual, rest)
  | .sign .less :: rest => some (.compare .less, rest)
  | .sign .lessEqual :: rest => some (.compare .lessEqual, rest)
  | .sign .greater :: rest => some (.compare .greater, rest)
  | .sign .greaterEqual :: rest => some (.compare .greaterEqual, rest)
  | token :: rest =>
      match keyword? token with
      | some "AND" => some (.and, rest)
      | some "OR" => some (.or, rest)
      | some "LIKE" => some (.compare .like, rest)
      | some "IN" => some (.inArray, rest)
      | some "IS" =>
          match afterKeyword? "NOT" rest with
          | some rest => some (.compare .notSame, rest)
          | none => some (.compare .same, rest)
      | _ => none
  | [] => none

/-- The value set behind `IN`. -/
def array? : List Token → Option (String × List Token)
  | .word function :: .sign .openParen :: .parameter name :: .sign .closeParen :: rest =>
      if upperName function = "RARRAY" then some (name, rest) else none
  | _ => none

variable [NumeralReading]

/--
The value of a number: an integer if it is written as one and fits, otherwise the
real that the store takes the numeral for.
-/
def numberValue
    (negative : Bool)
    (numeral : Decimal.Numeral)
    (pointed : Bool) :
    Value :=
  let magnitude : Int := numeral.mantissa
  let integer? :=
    if pointed then none
    else Decimal.int64OfInt? (if negative then -magnitude else magnitude)
  match integer? with
  | some n => .integer n
  | none => .real (NumeralReading.real negative numeral)

/-- An operand of one or a few tokens, without an expression inside. -/
def simple? : List Token → Option (Term × List Token)
  | .name tableAlias :: .sign .dot :: .name column :: rest => some (.column tableAlias column, rest)
  | .name column :: rest => some (.name column, rest)
  | .text text :: rest => some (.literal (.text text), rest)
  | .number numeral pointed :: rest =>
      some (.literal (numberValue false numeral pointed), rest)
  | .sign .minus :: .number numeral pointed :: rest =>
      some (.literal (numberValue true numeral pointed), rest)
  | .parameter name :: rest => some (.parameter name, rest)
  | token :: rest =>
      match keyword? token, token with
      | some "NULL", _ => some (.literal .null, rest)
      | none, .word column => some (.name column, rest)
      | _, _ => none
  | [] => none

mutual

/--
An operand at the front; `fuel` bounds the depth.  A minus sign is read before a
number only: a store reads one before a name as well, but `-inf`, which statements
have for the least real, is no operand here.
-/
def operand? : (fuel : Nat) → List Token → Option (Term × List Token)
  | 0, _ => none
  | fuel + 1, .sign .openParen :: rest => do
      let (inner, rest) ← expression? fuel loosest rest
      let rest ← afterSign? .closeParen rest
      return (inner, rest)
  | fuel + 1, .word function :: .sign .openParen :: rest =>
      if keyword? (.word function) = none then do
        let (args, rest) ← arguments? fuel rest
        return (.call function args, rest)
      else if upperName function = "NOT" then do
        let (inner, rest) ← expression? fuel negated (.sign .openParen :: rest)
        return (.not inner, rest)
      else
        none
  | fuel + 1, .word word :: rest =>
      if upperName word = "NOT" then do
        let (inner, rest) ← expression? fuel negated rest
        return (.not inner, rest)
      else
        simple? (.word word :: rest)
  | _ + 1, tokens => simple? tokens

/-- An expression at the front whose operators bind at least at a level. -/
def expression? : (fuel : Nat) → (level : Nat) → List Token → Option (Term × List Token)
  | 0, _, _ => none
  | fuel + 1, level, tokens => do
      let (left, rest) ← operand? fuel tokens
      extend? fuel level left rest

/-- An expression that begins with a given one. -/
def extend? : (fuel : Nat) → (level : Nat) → Term → List Token → Option (Term × List Token)
  | 0, _, left, tokens => some (left, tokens)
  | fuel + 1, level, left, tokens =>
      match infix? tokens with
      | none => some (left, tokens)
      | some (infixToken, rest) =>
          if infixToken.level < level then
            some (left, tokens)
          else if infixToken = .inArray then do
            let (name, rest) ← array? rest
            extend? fuel level (.inArray left name) rest
          else do
            let (right, rest) ← expression? fuel (infixToken.level + 1) rest
            extend? fuel level (infixToken.combine left right) rest

/-- The arguments of a call and its closing parenthesis. -/
def arguments? : (fuel : Nat) → List Token → Option (List Term × List Token)
  | 0, _ => none
  | _ + 1, .sign .closeParen :: rest => some ([], rest)
  | fuel + 1, tokens => do
      let (arg, rest) ← expression? fuel loosest tokens
      moreArguments? fuel [arg] rest

/-- The arguments behind some, and the closing parenthesis. -/
def moreArguments? :
    (fuel : Nat) → List Term → List Token → Option (List Term × List Token)
  | fuel + 1, args, .sign .comma :: rest => do
      let (arg, rest) ← expression? fuel loosest rest
      moreArguments? fuel (args ++ [arg]) rest
  | _, args, .sign .closeParen :: rest => some (args, rest)
  | _, _, _ => none

end

/-- The depth that suffices for some tokens: every second step down takes a token. -/
def depth
    (tokens : List Token) :
    Nat :=
  2 * tokens.length + 2

/-- An expression at the front. -/
def term?
    (tokens : List Token) :
    Option (Term × List Token) :=
  expression? (depth tokens) loosest tokens

/-- A name behind `AS`. -/
def aliasName?
    (tokens : List Token) :
    Option (String × List Token) :=
  match afterKeyword? "AS" tokens with
  | some (.name name :: rest) => some (name, rest)
  | _ => none

/-- A result column. -/
def result?
    (tokens : List Token) :
    Option (ResultTerm × List Token) := do
  let (term, rest) ← term? tokens
  let (name, rest) ← aliasName? rest
  return (⟨term, name⟩, rest)

/-- A table and its alias. -/
def table? : List Token → Option (AliasedTable × List Token)
  | .name table :: rest => (aliasName? rest).map fun found => (⟨table, found.1⟩, found.2)
  | _ => none

/-- A joined table and its condition. -/
def join?
    (tokens : List Token) :
    Option (JoinTerm × List Token) := do
  let rest ← afterKeyword? "INNER" tokens
  let rest ← afterKeyword? "JOIN" rest
  let (table, rest) ← table? rest
  let rest ← afterKeyword? "ON" rest
  let (on, rest) ← term? rest
  return (⟨table, on⟩, rest)

/-- A sort term. -/
def sortTerm?
    (tokens : List Token) :
    Option (SortTerm × List Token) := do
  let (term, rest) ← term? tokens
  match afterKeyword? "DESC" rest with
  | some rest => return (⟨term, true⟩, rest)
  | none => return (⟨term, false⟩, rest)

/-- One or more parts with commas between them; `fuel` bounds their number. -/
def separated?
    (part : List Token → Option (α × List Token)) :
    (fuel : Nat) → List Token → Option (List α × List Token)
  | 0, _ => none
  | fuel + 1, tokens => do
      let (first, rest) ← part tokens
      match afterSign? .comma rest with
      | some rest => do
          let (others, rest) ← separated? part fuel rest
          return (first :: others, rest)
      | none => return ([first], rest)

/-- As many joined tables as there are; `fuel` bounds their number. -/
def joins? : (fuel : Nat) → List Token → Option (List JoinTerm × List Token)
  | 0, tokens => some ([], tokens)
  | fuel + 1, tokens =>
      match afterKeyword? "INNER" tokens with
      | none => some ([], tokens)
      | some _ => do
          let (first, rest) ← join? tokens
          let (others, rest) ← joins? fuel rest
          return (first :: others, rest)

/-- What stands behind a keyword, if the keyword is there. -/
def clause?
    (keyword : String)
    (part : List Token → Option (α × List Token))
    (tokens : List Token) :
    Option (Option α × List Token) :=
  match afterKeyword? keyword tokens with
  | none => some (none, tokens)
  | some rest => (part rest).map fun found => (some found.1, found.2)

/-- The terms behind `BY`. -/
def ordering?
    (tokens : List Token) :
    Option (List SortTerm × List Token) := do
  let rest ← afterKeyword? "BY" tokens
  separated? sortTerm? tokens.length rest

/-- A number of rows. -/
def limit? : List Token → Option (Nat × List Token)
  | .number numeral false :: rest => some (numeral.mantissa, rest)
  | _ => none

/-- The selection that some tokens spell. -/
def selection?
    (tokens : List Token) :
    Option Selection := do
  let rest ← afterKeyword? "SELECT" tokens
  let (results, rest) ← separated? result? tokens.length rest
  let rest ← afterKeyword? "FROM" rest
  let (source, rest) ← table? rest
  let (joins, rest) ← joins? tokens.length rest
  let (filter, rest) ← clause? "WHERE" term? rest
  let (ordering, rest) ← clause? "ORDER" ordering? rest
  let (limit, rest) ← clause? "LIMIT" limit? rest
  if rest.isEmpty then
    return ⟨results, source, joins, filter, ordering.getD [], limit⟩
  else
    none

end Reader

/-- A read statement: the selection, and the names of the parameters in it. -/
structure Prepared where
  selection : Selection
  parameters : List String
  deriving Repr

/-- The names of the parameters among tokens. -/
def parameterNames
    (tokens : List Token) :
    List String :=
  tokens.filterMap fun token =>
    match token with
    | .parameter name => some name
    | _ => none

/-- Read the text of a statement. -/
def prepare?
    [NumeralReading]
    (text : String) :
    Option Prepared := do
  let tokens ← tokens? text
  let selection ← Reader.selection? tokens
  return ⟨selection, parameterNames tokens⟩

end FullTextQuery.Sql
