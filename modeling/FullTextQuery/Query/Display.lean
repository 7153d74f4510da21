import FullTextQuery.Query.Expr

namespace FullTextQuery.Expr

/-!
# The display text of expressions

Conjunctions and disjunctions are parenthesised, comparisons and negations are
not; a text literal is written in double quotes with inner ones doubled.
-/

/-- The characters with every occurrence of `quote` written twice. -/
def doubled
    (quote : Char)
    (cs : List Char) :
    List Char :=
  cs.flatMap fun c => if c = quote then [c, c] else [c]

/-- A literal as it is displayed. -/
def displayLiteral : Value → String
  | .text s => String.ofList ('"' :: doubled '"' s.toList ++ ['"'])
  | value => value.display

mutual

/-- The display text of an expression. -/
def display : Expr → String
  | .item name => name
  | .member source property => source ++ "." ++ property
  | .literal value => displayLiteral value
  | .parameter name => "@" ++ name
  | .compare left op right => left.display ++ " " ++ op.symbol ++ " " ++ right.display
  | .and left right => "(" ++ left.display ++ " and " ++ right.display ++ ")"
  | .or left right => "(" ++ left.display ++ " or " ++ right.display ++ ")"
  | .not operand => "not " ++ operand.display
  | .call function args => function ++ "(" ++ displayArgs args ++ ")"

/-- The display texts of arguments, with commas between them. -/
def displayArgs : List Expr → String
  | [] => ""
  | [arg] => arg.display
  | arg :: args => arg.display ++ ", " ++ displayArgs args

end

end FullTextQuery.Expr
