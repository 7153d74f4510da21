import FullTextQuery.Binary64.Text
import FullTextQuery.Query.Basic
import FullTextQuery.Query.Lexeme
import FullTextQuery.Query.Matcher

namespace FullTextQuery.Query

/-!
# The grammar of queries

One matcher per rule.  Between the parts of a rule there may be layout; tokens,
members and parameters have none inside.  An integer that does not fit is a
matched integer all the same: it is refused only when the whole text is a
query, so the value of a rule is a `Reading`, and the first integer that does
not fit is the one that is reported.
-/

/-- An integer token that does not fit, and the characters left where it begins. -/
structure MisfitInteger where
  text : String
  left : Nat
  deriving Repr, DecidableEq

/-- The value of a rule, or the first integer in it that does not fit. -/
abbrev Reading (α : Type) : Type :=
  Except MisfitInteger α

namespace Grammar

open Matcher

/-- Layout, possibly none. -/
def layout : Matcher Unit :=
  fun cs => ⟨some ((), skipLayout .between cs), none⟩

/-- A keyword. -/
def keyword
    (word : String) :
    Matcher Unit :=
  token (scanWord? word.toList)

/-- An identifier. -/
def name : Matcher String :=
  token scanName?

/-- A part, and layout behind it. -/
def spaced
    (part : Matcher α) :
    Matcher α := do
  let value ← part
  layout
  return value

/-- `item.property`, without layout inside. -/
def member : Matcher Expr :=
  rule do
    let source ← name
    sign '.'
    let property ← name
    return .member source property

/-- `@name`, without layout inside. -/
def parameter : Matcher Expr :=
  rule do
    sign '@'
    let parameter ← name
    return .parameter parameter

/-- The word `null`. -/
def nullLiteral : Matcher (Reading Value) := do
  token (scanWord? "null".toList)
  return .ok .null

/-- A number with a fraction. -/
def realLiteral : Matcher (Reading Value) := do
  let parts ← token scanReal?
  let numeral : Decimal.Numeral := ⟨parts.whole ++ parts.fraction, -(parts.fraction.length : Int)⟩
  return .ok (.real (Binary64.ofNumeral parts.negative numeral))

/-- An integer, which must fit into 64 bits with a sign. -/
def integerLiteral : Matcher (Reading Value) := do
  let start ← left
  let digits ← token scanInteger?
  match Decimal.int64? digits with
  | some n => return .ok (.integer n)
  | none => return .error ⟨String.ofList digits, start⟩

/-- A quoted text. -/
def textLiteral : Matcher (Reading Value) := do
  let text ← token scanText?
  return .ok (.text text)

/-- A literal. -/
def literal : Matcher (Reading Expr) :=
  rule do
    let value ← firstOf [nullLiteral, realLiteral, integerLiteral, textLiteral]
    return value.map .literal

/-- The operators, longer spellings first. -/
def operatorSigns : List (List Char × Comparison) :=
  [(['<', '='], .ltEq), (['>', '='], .gtEq), (['!', '='], .notEq), (['<', '>'], .notEq),
    (['='], .eq), (['<'], .lt), (['>'], .gt)]

/-- The operator that a text begins with. -/
def scanOperator?
    (cs : List Char) :
    Option (Comparison × List Char) :=
  match operatorSigns.find? fun entry => entry.1.isPrefixOf cs with
  | some (spelling, op) => some (op, cs.drop spelling.length)
  | none => (scanWord? "like".toList cs).map fun found => (.like, found.2)

/-- A comparison operator. -/
def operator : Matcher Comparison :=
  token scanOperator?

/-- One or more parts with commas between them. -/
def separated
    (part : Matcher α) :
    Matcher (List α) := do
  let first ← part
  let others ← many do
    layout
    sign ','
    layout
    part
  return first :: others

/-- Collect readings; the first misfit wins. -/
def collect : List (Reading α) → Reading (List α)
  | [] => .ok []
  | r :: rs => do
      let value ← r
      let values ← collect rs
      return value :: values

/-- A function applied to arguments; its name is taken in lower case. -/
def call
    (expr : Matcher (Reading Expr)) :
    Matcher (Reading Expr) :=
  rule do
    let function ← spaced name
    spaced (sign '(')
    let args ← spaced (optional (separated expr))
    sign ')'
    let lowered := String.ofList (function.toList.map Char.toLower)
    return (collect (args.getD [])).map (.call lowered)

/-- An expression in parentheses. -/
def parenthesised
    (expr : Matcher (Reading Expr)) :
    Matcher (Reading Expr) := do
  spaced (sign '(')
  let inner ← spaced expr
  sign ')'
  return inner

/-- What a comparison compares. -/
def operand
    (expr : Matcher (Reading Expr)) :
    Matcher (Reading Expr) :=
  rule do
    firstOf
      [call expr,
        member.andThen fun e => succeed (.ok e),
        literal,
        parameter.andThen fun e => succeed (.ok e),
        parenthesised expr,
        name.andThen fun item => succeed (.ok (.item item))]

/-- One operand, or two with an operator between them. -/
def comparison
    (expr : Matcher (Reading Expr)) :
    Matcher (Reading Expr) :=
  rule do
    let first ← operand expr
    let second ← optional do
      layout
      let op ← spaced operator
      let other ← operand expr
      return (op, other)
    match second with
    | none => return first
    | some (op, other) =>
        return do
          let l ← first
          let r ← other
          return .compare l op r

/-- At most `depth` negations in front of a comparison. -/
def negation
    (expr : Matcher (Reading Expr)) :
    Nat → Matcher (Reading Expr)
  | 0 => fail
  | depth + 1 =>
      rule do
        orElse
          (do
            spaced (keyword "not")
            let inner ← negation expr depth
            return inner.map .not)
          (comparison expr)

/-- A comparison with any number of negations in front. -/
def unary
    (expr : Matcher (Reading Expr)) :
    Matcher (Reading Expr) :=
  fun cs => negation expr (cs.length + 1) cs

/-- Combine readings from left to right. -/
def groupLeft
    (combine : Expr → Expr → Expr)
    (first : Reading Expr)
    (others : List (Reading Expr)) :
    Reading Expr :=
  others.foldl
    (fun acc next => do
      let l ← acc
      let r ← next
      return combine l r)
    first

/-- Operands with a keyword between them, grouped to the left. -/
def keywordChain
    (word : String)
    (combine : Expr → Expr → Expr)
    (part : Matcher (Reading Expr)) :
    Matcher (Reading Expr) :=
  rule do
    let first ← part
    let others ← many do
      layout
      spaced (keyword word)
      part
    return groupLeft combine first others

/-- A conjunction. -/
def conjunction
    (expr : Matcher (Reading Expr)) :
    Matcher (Reading Expr) :=
  keywordChain "and" .and (unary expr)

/-- A disjunction. -/
def disjunction
    (expr : Matcher (Reading Expr)) :
    Matcher (Reading Expr) :=
  keywordChain "or" .or (conjunction expr)

/-- An expression with at most `depth` expressions nested in one another. -/
def exprWithin : Nat → Matcher (Reading Expr)
  | 0 => fail
  | depth + 1 => rule (disjunction (exprWithin depth))

/-- An expression.  Each nested one stands behind at least one character of its own. -/
def expr : Matcher (Reading Expr) :=
  fun cs => exprWithin (cs.length + 1) cs

/-- `from item in entity` -/
def fromClause : Matcher Source :=
  rule do
    spaced (keyword "from")
    let item ← spaced name
    spaced (keyword "in")
    let entity ← name
    return ⟨item, entity⟩

/-- `join item in entity on left = right` -/
def joinClause : Matcher (Reading Join) :=
  rule do
    spaced (keyword "join")
    let item ← spaced name
    spaced (keyword "in")
    let entity ← spaced name
    spaced (keyword "on")
    let leftSide ← spaced (operand expr)
    spaced (sign '=')
    let rightSide ← operand expr
    return do
      let l ← leftSide
      let r ← rightSide
      return ⟨⟨item, entity⟩, l, r⟩

/-- `where predicate` -/
def whereClause : Matcher (Reading Expr) :=
  rule do
    spaced (keyword "where")
    expr

/-- `select expression, …` -/
def selectClause : Matcher (Reading (List Expr)) :=
  rule do
    spaced (keyword "select")
    let exprs ← separated expr
    return collect exprs

/-- The direction of a sort key; true for descending. -/
def direction : Matcher Bool :=
  token fun cs =>
    match afterWord? "asc".toList cs with
    | some rest => if continuesName rest then none else some (false, rest)
    | none => (scanWord? "desc".toList cs).map fun found => (true, found.2)

/-- An expression and the direction in which to sort by it. -/
def sortKey : Matcher (Reading SortKey) :=
  rule do
    let key ← expr
    let descending ← optional do
      layout
      direction
    return key.map fun e => ⟨e, descending.getD false⟩

/-- `order by key, …` -/
def orderClause : Matcher (Reading (List SortKey)) :=
  rule do
    spaced (keyword "order")
    spaced (keyword "by")
    let keys ← separated sortKey
    return collect keys

/-- `take count`, where the count must fit into 64 bits without a sign. -/
def takeClause : Matcher (Reading UInt64) :=
  rule do
    spaced (keyword "take")
    let start ← left
    let digits ← token scanInteger?
    match Decimal.below? UInt64.size digits with
    | some n => return .ok (UInt64.ofNat n)
    | none => return .error ⟨String.ofList digits, start⟩

/-- The end of the text. -/
def endOfText : Matcher Unit :=
  token fun cs => if cs.isEmpty then some ((), cs) else none

/-- Parts that each stand behind layout, as many as there are. -/
def repeated
    (part : Matcher α) :
    Matcher (List α) :=
  many do
    layout
    part

/-- A part behind layout, or nothing. -/
def possibly
    (part : Matcher α) :
    Matcher (Option α) :=
  optional do
    layout
    part

/-- A whole query. -/
def query : Matcher (Reading Query) :=
  rule do
    layout
    let source ← fromClause
    let joins ← repeated joinClause
    let filters ← repeated whereClause
    let projection ← possibly selectClause
    let ordering ← possibly orderClause
    let limit ← possibly takeClause
    let _ ← possibly (sign ';')
    layout
    endOfText
    return do
      let joins ← collect joins
      let filters ← collect filters
      let projection ← projection.getD (.ok [])
      let ordering ← ordering.getD (.ok [])
      let limit? ← match limit with
        | none => pure none
        | some count => count.map some
      return { source, joins, filters, projection, ordering, limit? }

end Grammar

end FullTextQuery.Query
