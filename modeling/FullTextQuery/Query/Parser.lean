import FullTextQuery.Error
import FullTextQuery.Query.Grammar

namespace FullTextQuery

/-!
# Reading queries

A text is a query if the grammar matches all of it and every integer in it
fits.  Otherwise the error says where: at the integer that does not fit, or at
the rule that failed nearest to the end of the text.
-/

namespace Position

/--
The position behind the first `count` characters of a text.  A line ends with
`\n` or `\r\n`; a position between the two is counted to the next line, but no rule
begins there, so no error asks for one.
-/
def advance
    (position : Position) :
    Nat → List Char → Position
  | 0, _ => position
  | _ + 1, [] => position
  | 1, '\r' :: '\n' :: _ => ⟨position.line + 1, 1⟩
  | count + 2, '\r' :: '\n' :: rest => advance ⟨position.line + 1, 1⟩ count rest
  | count + 1, '\n' :: rest => advance ⟨position.line + 1, 1⟩ count rest
  | count + 1, _ :: rest => advance ⟨position.line, position.column + 1⟩ count rest

/-- The position in a text where `left` characters are left. -/
def ofLeft
    (text : List Char)
    (left : Nat) :
    Position :=
  advance ⟨1, 1⟩ (text.length - left) text

end Position

namespace Query

/-- The query that some characters spell. -/
def ofChars
    (text : List Char) :
    Except ParseError Query :=
  let answer := Grammar.query text
  match answer.matched? with
  | some (.ok query, _) => .ok query
  | some (.error misfit, _) =>
      .error (.unexpectedInteger misfit.text (Position.ofLeft text misfit.left))
  | none => .error (.syntaxError (Position.ofLeft text (answer.failure?.getD text.length)))

/-- The query that a text spells. -/
def parse
    (text : String) :
    Except ParseError Query :=
  ofChars text.toList

end Query

namespace Expr

/-- What a lone expression is wrapped in to make it a query. -/
def queryBefore : String :=
  "from __ in __ where "

/--
The first filter of the query that a text makes behind `queryBefore`.  Positions
are those in the whole wrapped text.
-/
def parse
    (text : String) :
    Except ParseError Expr := do
  let query ← Query.parse (queryBefore ++ text)
  match query.filters with
  | predicate :: _ => .ok predicate
  | [] => .error (.other "missing expression" none)

end Expr

end FullTextQuery
