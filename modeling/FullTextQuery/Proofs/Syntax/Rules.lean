import FullTextQuery.Decimal.Integer
import FullTextQuery.Proofs.Syntax.Peg

namespace FullTextQuery.Syntax

/-!
# The grammar of queries, rule by rule

The language that queries are written in, given by its rules alone: nothing here
says how a text is taken apart.
-/

/-- The rules of the language. -/
inductive Rule where
  | whiteSpace
  | comment
  | nameChar
  | keyword (word : String)
  | reserved
  | name
  | query
  | fromClause
  | joinClause
  | whereClause
  | selectClause
  | orderClause
  | sortKey
  | direction
  | takeClause
  | expr
  | disjunction
  | conjunction
  | negation
  | comparison
  | operator
  | operand
  | call
  | member
  | parameter
  | literal
  | null
  | real
  | integer
  | text
  | doubleQuoted
  | singleQuoted
  | endOfText
  deriving Repr, DecidableEq

section Terminals

variable {ρ : Type}

/-- Given characters. -/
def chars
    (expected : String) :
    Peg ρ :=
  .terminal (.text expected.toList)

/-- A word given in lower case, written in any case. -/
def word
    (lowered : String) :
    Peg ρ :=
  .terminal (.word lowered.toList)

/-- One character of a kind. -/
def one
    (kind : Char → Bool) :
    Peg ρ :=
  .terminal (.one kind)

/-- Any character. -/
def anyChar : Peg ρ :=
  one fun _ => true

/-- Any characters up to what ends them. -/
def upTo
    (terminator : Peg ρ) :
    Peg ρ :=
  .many (.seq (.absent terminator) anyChar)

/-- The end of a line. -/
def newLine : Peg ρ :=
  .firstOf [chars "\n", chars "\r\n", chars "\r"]

end Terminals

/-- Parts with commas between them. -/
def commaSeparated
    (part : Peg Rule) :
    Peg Rule :=
  .seq part (.many (.seq (chars ",") part))

/-- What each rule matches, without the layout between its parts. -/
def body : Rule → Peg Rule
  | .whiteSpace => .firstOf [chars " ", chars "\t", chars "\r", chars "\n"]
  | .comment =>
      .firstOf
        [.sequence [chars "/*", upTo (chars "*/"), chars "*/"],
          .sequence [chars "--", upTo newLine]]
  | .nameChar => .firstOf [one Char.isAlphanum, chars "_"]
  | .keyword w => .sequence [word w, .absent (.rule .nameChar)]
  | .reserved =>
      .sequence
        [.firstOf
          [word "from", word "in", word "join", word "on", word "where", word "select",
            word "order", word "by", word "asc", word "desc", word "take", word "and",
            word "or", word "not", word "null", word "like"],
          .absent (.rule .nameChar)]
  | .name =>
      .sequence
        [.absent (.rule .reserved), .firstOf [one Char.isAlpha, chars "_"],
          .many (.rule .nameChar)]
  | .query =>
      .sequence
        [.empty, .rule .fromClause, .many (.rule .joinClause), .many (.rule .whereClause),
          .optional (.rule .selectClause), .optional (.rule .orderClause),
          .optional (.rule .takeClause), .optional (chars ";"), .rule .endOfText]
  | .fromClause =>
      .sequence [.rule (.keyword "from"), .rule .name, .rule (.keyword "in"), .rule .name]
  | .joinClause =>
      .sequence
        [.rule (.keyword "join"), .rule .name, .rule (.keyword "in"), .rule .name,
          .rule (.keyword "on"), .rule .operand, chars "=", .rule .operand]
  | .whereClause => .sequence [.rule (.keyword "where"), .rule .expr]
  | .selectClause =>
      .sequence [.rule (.keyword "select"), commaSeparated (.rule .expr)]
  | .orderClause =>
      .sequence
        [.rule (.keyword "order"), .rule (.keyword "by"), commaSeparated (.rule .sortKey)]
  | .sortKey => .sequence [.rule .expr, .optional (.rule .direction)]
  | .direction =>
      .sequence [.firstOf [word "asc", word "desc"], .absent (.rule .nameChar)]
  | .takeClause => .sequence [.rule (.keyword "take"), .rule .integer]
  | .expr => .rule .disjunction
  | .disjunction =>
      .sequence
        [.rule .conjunction, .many (.sequence [.rule (.keyword "or"), .rule .conjunction])]
  | .conjunction =>
      .sequence [.rule .negation, .many (.sequence [.rule (.keyword "and"), .rule .negation])]
  | .negation =>
      .firstOf [.sequence [.rule (.keyword "not"), .rule .negation], .rule .comparison]
  | .comparison =>
      .sequence [.rule .operand, .optional (.sequence [.rule .operator, .rule .operand])]
  | .operator =>
      .firstOf
        [chars "<=", chars ">=", chars "!=", chars "<>", chars "=", chars "<", chars ">",
          .sequence [word "like", .absent (.rule .nameChar)]]
  | .operand =>
      .firstOf
        [.rule .call, .rule .member, .rule .literal, .rule .parameter,
          .sequence [chars "(", .rule .expr, chars ")"], .rule .name]
  | .call =>
      .sequence
        [.rule .name, chars "(", .optional (commaSeparated (.rule .expr)), chars ")"]
  | .member => .sequence [.rule .name, chars ".", .rule .name]
  | .parameter => .sequence [chars "@", .rule .name]
  | .literal => .firstOf [.rule .null, .rule .real, .rule .integer, .rule .text]
  | .null => .sequence [word "null", .absent (.rule .nameChar)]
  | .real =>
      .sequence
        [.optional (chars "-"), .atLeastOnce (one Char.isDigit), chars ".",
          .atLeastOnce (one Char.isDigit)]
  | .integer => .sequence [.optional (chars "-"), .atLeastOnce (one Char.isDigit)]
  | .text =>
      .firstOf
        [.sequence [chars "\"", .rule .doubleQuoted, chars "\""],
          .sequence [chars "'", .rule .singleQuoted, chars "'"]]
  | .doubleQuoted =>
      .many (.firstOf [chars "\"\"", .sequence [.absent (chars "\""), anyChar]])
  | .singleQuoted =>
      .many (.firstOf [chars "''", .sequence [.absent (chars "'"), anyChar]])
  | .endOfText => .terminal .finish

/-- Which rules have layout between their parts, and which leave trees. -/
def kind : Rule → RuleKind
  | .whiteSpace | .comment | .nameChar => .silent
  | .keyword _ | .reserved | .name | .direction | .operator | .null | .real | .integer
  | .doubleQuoted | .singleQuoted | .endOfText => .atomic
  | .member | .parameter | .text => .compound
  | .query | .fromClause | .joinClause | .whereClause | .selectClause | .orderClause
  | .sortKey | .takeClause | .expr | .disjunction | .conjunction | .negation
  | .comparison | .operand | .call | .literal => .ordinary

/-- White space, with comments in it. -/
def layout : Peg Rule :=
  .seq (.many (.rule .whiteSpace))
    (.many (.seq (.rule .comment) (.many (.rule .whiteSpace))))

/-- The grammar of queries. -/
def grammar : PegGrammar Rule where
  layout := layout
  kind := kind
  body := body

/-- A query text is matched if the rule for queries matches all of it. -/
def Matches
    (text : String)
    (trees : List (Tree Rule)) :
    Prop :=
  grammar.Parses (.rule .query) text.toList (some (trees, []))

/-- A text has one match at most. -/
theorem Matches.unique
    {text : String}
    {trees others : List (Tree Rule)}
    (one : Matches text trees)
    (two : Matches text others) :
    trees = others :=
  congrArg Prod.fst (Option.some.inj (PegGrammar.Parses.unique one two))

end FullTextQuery.Syntax
