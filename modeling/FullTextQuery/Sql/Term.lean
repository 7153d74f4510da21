import FullTextQuery.Relational.Statement

namespace FullTextQuery.Sql

/-!
# Terms of statements

What a statement text says, as a tree: the expressions in it, and the parts of
a selection from joined tables.
-/

/-- The operators between two values. -/
inductive Operator where
  | equal
  | notEqual
  | same
  | notSame
  | less
  | lessEqual
  | greater
  | greaterEqual
  | like
  deriving Repr, DecidableEq

/-- An expression of a statement. -/
inductive Term where
  | name (column : String)
  | column (tableAlias column : String)
  | literal (value : Value)
  | parameter (name : String)
  | compare (left : Term) (op : Operator) (right : Term)
  | and (left right : Term)
  | or (left right : Term)
  | not (operand : Term)
  | call (function : String) (args : List Term)
  | inArray (operand : Term) (parameter : String)
  deriving Repr, Inhabited

namespace Term

mutual

/-- The length of the longest path down a term. -/
def height : Term → Nat
  | .name _ | .column .. | .literal _ | .parameter _ => 1
  | .compare left _ right => max left.height right.height + 1
  | .and left right => max left.height right.height + 1
  | .or left right => max left.height right.height + 1
  | .not operand => operand.height + 1
  | .call _ args => heightOfAll args + 1
  | .inArray operand _ => operand.height + 1

/-- The greatest height among terms. -/
def heightOfAll : List Term → Nat
  | [] => 0
  | term :: terms => max term.height (heightOfAll terms)

end

/-- Whether a function is called in a term; `LIKE` is one. -/
def callsFunction : Term → Bool
  | .name _ | .column .. | .literal _ | .parameter _ => false
  | .compare left op right => op == .like || left.callsFunction || right.callsFunction
  | .and left right => left.callsFunction || right.callsFunction
  | .or left right => left.callsFunction || right.callsFunction
  | .not operand => operand.callsFunction
  | .call _ _ => true
  | .inArray operand _ => operand.callsFunction

/--
Whether a term is false whatever else it names: the literal zero, or a
conjunction with such a term in which no function is called.
-/
def isNever : Term → Bool
  | .literal value => value == .integer 0
  | .and left right =>
      (left.isNever || right.isNever) && !left.callsFunction && !right.callsFunction
  | .name _ | .column .. | .parameter _ | .compare .. | .or .. | .not _ | .call .. | .inArray .. =>
      false

end Term

/-- A result column. -/
structure ResultTerm where
  term : Term
  name : String
  deriving Repr

/-- A joined table and its condition. -/
structure JoinTerm where
  table : AliasedTable
  on : Term
  deriving Repr

/-- A sort term. -/
structure SortTerm where
  term : Term
  descending : Bool
  deriving Repr

/-- A selection from joined tables. -/
structure Selection where
  results : List ResultTerm
  source : AliasedTable
  joins : List JoinTerm
  filter? : Option Term
  ordering : List SortTerm
  limit? : Option Nat
  deriving Repr

namespace Selection

/-- The tables of a selection. -/
def tables
    (selection : Selection) :
    List AliasedTable :=
  selection.source :: selection.joins.map (·.table)

/-- All terms of a selection. -/
def terms
    (selection : Selection) :
    List Term :=
  selection.results.map (·.term) ++ selection.joins.map (·.on) ++ selection.filter?.toList
    ++ selection.ordering.map (·.term)

end Selection

end FullTextQuery.Sql
