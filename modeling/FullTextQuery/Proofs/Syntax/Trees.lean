import Mathlib.Algebra.Group.Int.Defs
import Mathlib.Algebra.Group.Nat.Defs
import FullTextQuery.Binary64.Text
import FullTextQuery.Proofs.Syntax.Rules
import FullTextQuery.Query.Basic

namespace FullTextQuery

/-!
# What the tree of a query text stands for

The trees of a matched text are turned into a query from the root down.  A
reader of trees knows no grammar: it asks for the parts that it needs and
complains of those that are missing or that it does not know.
-/

namespace Tree

variable {ρ : Type}

/-- The rule that a tree was matched by. -/
def rule : Tree ρ → ρ
  | .node rule _ _ => rule

/-- The characters that a tree covers. -/
def text : Tree ρ → List Char
  | .node _ text _ => text

/-- The trees inside a tree. -/
def parts : Tree ρ → List (Tree ρ)
  | .node _ _ parts => parts

/-- The covered characters as a text. -/
def spelling
    (t : Tree ρ) :
    String :=
  String.ofList t.text

end Tree

namespace Syntax

/-- Why a tree does not stand for a query. -/
inductive TreeError where
  | missing (what : String)
  | unexpected (rule : Rule) (text : List Char)
  deriving Repr, DecidableEq

/-- Whether a tree is that of a keyword. -/
def isKeyword
    (t : Tree Rule) :
    Bool :=
  match t.rule with
  | .keyword _ => true
  | _ => false

/-- The first of some trees, which are asked for by what they stand for. -/
def next
    (what : String) :
    List (Tree Rule) → Except TreeError (Tree Rule × List (Tree Rule))
  | [] => .error (.missing what)
  | t :: others => .ok (t, others)

/-- The operator that a tree spells. -/
def comparisonOf
    (t : Tree Rule) :
    Except TreeError Comparison :=
  match String.ofList (t.text.map Char.toLower) with
  | "=" => .ok .eq
  | "!=" | "<>" => .ok .notEq
  | "<" => .ok .lt
  | "<=" => .ok .ltEq
  | ">" => .ok .gt
  | ">=" => .ok .gtEq
  | "like" => .ok .like
  | _ => .error (.unexpected t.rule t.text)

/-- The characters between two quotes with every doubled quote taken as one. -/
def undoubled
    (quote : Char) :
    List Char → List Char
  | [] => []
  | [c] => [c]
  | c :: d :: rest =>
      if c = quote ∧ d = quote then
        quote :: undoubled quote rest
      else
        c :: undoubled quote (d :: rest)

/-- The value that the tree of a literal spells. -/
def literalOf
    (t : Tree Rule) :
    Except TreeError Expr :=
  match t.rule with
  | .null => .ok (.literal .null)
  | .integer =>
      match Decimal.int64? t.text with
      | some n => .ok (.literal (.integer n))
      | none => .error (.unexpected t.rule t.text)
  | .real =>
      match Binary64.ofText? t.spelling with
      | some x => .ok (.literal (.real x))
      | none => .error (.unexpected t.rule t.text)
  | .text => do
      let (quoted, _) ← next "string body" t.parts
      let quote := if quoted.rule = .doubleQuoted then '"' else '\''
      .ok (.literal (.text (String.ofList (undoubled quote quoted.text))))
  | _ => .error (.unexpected t.rule t.text)

/-- The first expression of a list combined with the others from left to right. -/
def foldLeft
    (combine : Expr → Expr → Expr) :
    List Expr → Except TreeError Expr
  | [] => .error (.missing "operand")
  | first :: others => .ok (others.foldl combine first)

mutual

/-- The expression that a tree stands for. -/
def exprOf : Tree Rule → Except TreeError Expr
  | .node .expr _ parts => innerOf parts
  | .node .disjunction _ parts => exprsOf parts >>= foldLeft .or
  | .node .conjunction _ parts => exprsOf parts >>= foldLeft .and
  | .node .negation _ [] => .error (.missing "operand")
  | .node .negation _ (first :: others) =>
      if first.rule = .keyword "not" then
        match others with
        | [] => .error (.missing "negated operand")
        | negated :: _ => .not <$> exprOf negated
      else
        exprOf first
  | .node .comparison _ [] => .error (.missing "operand")
  | .node .comparison _ [left] => operandOf left
  | .node .comparison _ (left :: op :: others) => do
      let l ← operandOf left
      let o ← comparisonOf op
      match others with
      | [] => .error (.missing "right operand")
      | right :: _ => return .compare l o (← operandOf right)
  | .node .operand text parts => operandOf (.node .operand text parts)
  | .node rule text _ => .error (.unexpected rule text)
termination_by t => (sizeOf t, 2)

/-- The expression that the tree of an operand stands for. -/
def operandOf : Tree Rule → Except TreeError Expr
  | .node .operand _ [] => .error (.missing "operand")
  | .node .operand _ (t :: _) => atomOf t
  | t => atomOf t
termination_by t => (sizeOf t, 1)

/-- The expression that the tree inside an operand stands for. -/
def atomOf : Tree Rule → Except TreeError Expr
  | .node .call _ [] => .error (.missing "function name")
  | .node .call _ (function :: args) => do
      let args ← argsOf args
      return .call (String.ofList (function.text.map Char.toLower)) args
  | .node .member _ parts => do
      let (item, parts) ← next "item variable" parts
      let (property, _) ← next "property" parts
      return .member item.spelling property.spelling
  | .node .parameter _ parts => do
      let (parameter, _) ← next "parameter name" parts
      return .parameter parameter.spelling
  | .node .literal _ parts => do
      let (value, _) ← next "literal" parts
      literalOf value
  | .node .name text _ => .ok (.item (String.ofList text))
  | .node .expr _ parts => innerOf parts
  | .node rule text _ => .error (.unexpected rule text)
termination_by t => (sizeOf t, 0)

/-- The expression inside an expression. -/
def innerOf : List (Tree Rule) → Except TreeError Expr
  | [] => .error (.missing "expression")
  | t :: _ => exprOf t
termination_by parts => (sizeOf parts, 0)

/-- The expressions that trees stand for, keywords left out. -/
def exprsOf : List (Tree Rule) → Except TreeError (List Expr)
  | [] => .ok []
  | t :: others =>
      if isKeyword t then
        exprsOf others
      else do
        let e ← exprOf t
        let es ← exprsOf others
        return e :: es
termination_by parts => (sizeOf parts, 0)

/-- The expressions that the trees of arguments stand for. -/
def argsOf : List (Tree Rule) → Except TreeError (List Expr)
  | [] => .ok []
  | t :: others => do
      let e ← exprOf t
      let es ← argsOf others
      return e :: es
termination_by parts => (sizeOf parts, 0)

end

/-- The sort key that a tree stands for. -/
def sortKeyOf
    (t : Tree Rule) :
    Except TreeError SortKey := do
  let (key, others) ← next "order expression" t.parts
  let e ← exprOf key
  let descending := match others with
    | [] => false
    | direction :: _ => direction.text.map Char.toLower = "desc".toList
  return ⟨e, descending⟩

/-- The query begun so far, which every clause but the first needs. -/
def begun : Option Query → Except TreeError Query
  | some query => .ok query
  | none => .error (.missing "from clause")

/-- Extend a query by what the tree of one of its clauses stands for. -/
def addClause
    (query? : Option Query)
    (clause : Tree Rule) :
    Except TreeError (Option Query) := do
  let parts := clause.parts.filter fun t => !isKeyword t
  match clause.rule with
  | .fromClause =>
      let (item, parts) ← next "item variable" parts
      let (entity, _) ← next "entity" parts
      return some { source := ⟨item.spelling, entity.spelling⟩ }
  | .joinClause =>
      let query ← begun query?
      let (item, parts) ← next "join item variable" parts
      let (entity, parts) ← next "join entity" parts
      let (left, parts) ← next "join operand" parts
      let left ← operandOf left
      let (right, _) ← next "join operand" parts
      let right ← operandOf right
      let join : Join := ⟨⟨item.spelling, entity.spelling⟩, left, right⟩
      return some { query with joins := query.joins ++ [join] }
  | .whereClause =>
      let query ← begun query?
      let (predicate, _) ← next "predicate" parts
      let predicate ← exprOf predicate
      return some { query with filters := query.filters ++ [predicate] }
  | .selectClause =>
      let query ← begun query?
      let projection ← argsOf parts
      return some { query with projection }
  | .orderClause =>
      let query ← begun query?
      let keys ← parts.mapM sortKeyOf
      return some { query with ordering := query.ordering ++ keys }
  | .takeClause =>
      let query ← begun query?
      let (count, _) ← next "row count" parts
      match Decimal.below? UInt64.size count.text with
      | some n => return some { query with limit? := some (UInt64.ofNat n) }
      | none => .error (.unexpected count.rule count.text)
  | .endOfText => return query?
  | _ => .error (.unexpected clause.rule clause.text)

/-- The query that the trees of a matched text stand for. -/
def queryOf
    (trees : List (Tree Rule)) :
    Except TreeError Query := do
  let (root, _) ← next "query" trees
  let query? ← root.parts.foldlM addClause none
  begun query?

/-- The number that digits spell behind an optional minus sign. -/
def signedNumber : List Char → Int
  | '-' :: digits => -(Decimal.ofDigits digits : Int)
  | digits => Decimal.ofDigits digits

/-- Whether the integer that a literal spells has 64 bits with a sign. -/
def FitsSigned
    (digits : List Char) :
    Prop :=
  -2 ^ 63 ≤ signedNumber digits ∧ signedNumber digits < 2 ^ 63

/-- Whether a count is written without a sign and has 64 bits. -/
def FitsCount
    (digits : List Char) :
    Prop :=
  digits.head? ≠ some '-' ∧ Decimal.ofDigits digits < 2 ^ 64

mutual

/-- Whether all integers in a tree fit where they stand. -/
def IntegersFit : Tree Rule → Prop
  | .node .integer text _ => FitsSigned text
  | .node .takeClause _ parts => ∀ t ∈ parts, t.rule = .integer → FitsCount t.text
  | .node _ _ parts => AllIntegersFit parts

/-- Whether all integers in some trees fit. -/
def AllIntegersFit : List (Tree Rule) → Prop
  | [] => True
  | t :: others => IntegersFit t ∧ AllIntegersFit others

end

end Syntax

end FullTextQuery
