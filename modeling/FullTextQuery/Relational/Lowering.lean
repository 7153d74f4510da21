import FullTextQuery.Query.Scope
import FullTextQuery.Relational.PlannedSearch

namespace FullTextQuery

/-!
# Lowering

Expressions of a query become relational expressions.  Every node is first
offered to the rules in order, and the first one that claims it decides; what
nobody claims is lowered one to one.  Rules may put searches on record, which
stay there even if the lowering fails later on.
-/

/-- A lowering in progress: it may fail, and it may put searches on record. -/
abbrev Lowering : Type → Type :=
  ExceptT Error (StateM PlannedSearches)

namespace Lowering

/-- The searches on record so far. -/
def searches : Lowering (List PlannedSearch) := do
  return (← get).recorded

/-- Hand out the next identity of a search. -/
def nextId : Lowering SearchId := do
  modify PlannedSearches.advance
  return (← get).lastId

/-- Put a search on record. -/
def record
    (search : PlannedSearch) :
    Lowering Unit :=
  modify (·.add search)

/-- A result that was computed without putting anything on record. -/
def ofExcept : Except Error α → Lowering α
  | .ok value => pure value
  | .error e => throw e

/-- Run lowerings one after another. -/
def sequence : List (Lowering α) → Lowering (List α)
  | [] => pure []
  | lowering :: others => do
      let value ← lowering
      let values ← sequence others
      return value :: values

end Lowering

/--
Lowers one kind of expression.  A rule sees the scope, the expression, and for
each direct operand, in order, the lowering of that operand by all rules
together.  The answer `none` leaves the expression to the next rule.
-/
abbrev LoweringRule : Type :=
  Scope → Expr → List (Lowering RelExpr) → Lowering (Option RelExpr)

namespace LoweringRule

/-- Offer an expression to rules in order; what nobody claims gets the default. -/
def offer
    (scope : Scope)
    (e : Expr)
    (operands : List (Lowering RelExpr))
    (default : Lowering RelExpr) :
    List LoweringRule → Lowering RelExpr
  | [] => default
  | rule :: others => do
      match ← rule scope e operands with
      | some claimed => return claimed
      | none => offer scope e operands default others

end LoweringRule

namespace Expr

mutual

/-- The relational expression of an expression. -/
def lower
    (rules : List LoweringRule)
    (scope : Scope) :
    Expr → Lowering RelExpr
  | .item name =>
      LoweringRule.offer scope (.item name) []
        (throw (.plan (.itemAsValue name))) rules
  | .member source property =>
      LoweringRule.offer scope (.member source property) []
        (do
          let _ ← Lowering.ofExcept ((scope.item source).mapError .plan)
          return .member source property)
        rules
  | .literal value =>
      LoweringRule.offer scope (.literal value) [] (pure (.literal value)) rules
  | .parameter name =>
      LoweringRule.offer scope (.parameter name) [] (pure (.parameter name)) rules
  | .compare left op right =>
      let l := lower rules scope left
      let r := lower rules scope right
      LoweringRule.offer scope (.compare left op right) [l, r]
        (do return .compare (← l) op (← r)) rules
  | .and left right =>
      let l := lower rules scope left
      let r := lower rules scope right
      LoweringRule.offer scope (.and left right) [l, r]
        (do return .and (← l) (← r)) rules
  | .or left right =>
      let l := lower rules scope left
      let r := lower rules scope right
      LoweringRule.offer scope (.or left right) [l, r]
        (do return .or (← l) (← r)) rules
  | .not operand =>
      let o := lower rules scope operand
      LoweringRule.offer scope (.not operand) [o]
        (do return .not (← o)) rules
  | .call function args =>
      let operands := lowerAll rules scope args
      LoweringRule.offer scope (.call function args) operands
        (do return .function function (← Lowering.sequence operands)) rules

/-- The lowerings of arguments. -/
def lowerAll
    (rules : List LoweringRule)
    (scope : Scope) :
    List Expr → List (Lowering RelExpr)
  | [] => []
  | arg :: args => lower rules scope arg :: lowerAll rules scope args

end

end Expr

end FullTextQuery
