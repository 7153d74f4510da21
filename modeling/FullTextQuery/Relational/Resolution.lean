import FullTextQuery.Relational.Lowering

namespace FullTextQuery

/-!
# Resolution

Members of a relational expression become qualified columns, and every node is
checked to have a meaning in the store.  A node that has none by itself, an
unknown function or a membership test, is offered to the rules in order; a
node that nobody handles is an error.
-/

/-- The scalar functions of the store, with their numbers of arguments. -/
def knownFunctions : List (String × Nat) :=
  [("lower", 1), ("upper", 1), ("length", 1), ("trim", 1), ("abs", 1)]

/-- A name in lower case, ASCII letters only. -/
def lowerName
    (name : String) :
    String :=
  String.ofList (name.toList.map Char.toLower)

/-- Whether the store has a function with this name, in any case, and this number of arguments. -/
def isKnownFunction
    (name : String)
    (arity : Nat) :
    Bool :=
  knownFunctions.contains (lowerName name, arity)

/--
Handles nodes that have no meaning by themselves.  A rule sees the scope, the node,
and for each direct operand, in order, what resolution makes of it.  The answer
`none` leaves the node to the next rule.
-/
abbrev ResolutionRule : Type :=
  Scope → RelExpr → List (Except Error RelExpr) → Except Error (Option RelExpr)

namespace ResolutionRule

/-- Offer a node to rules in order. -/
def offer
    (scope : Scope)
    (node : RelExpr)
    (operands : List (Except Error RelExpr)) :
    List ResolutionRule → Except Error (Option RelExpr)
  | [] => .ok none
  | rule :: others => do
      match ← rule scope node operands with
      | some handled => return some handled
      | none => offer scope node operands others

end ResolutionRule

namespace RelExpr

/-- Results in order, or the first error. -/
def collect : List (Except Error RelExpr) → Except Error (List RelExpr)
  | [] => .ok []
  | r :: rs => do
      let value ← r
      let values ← collect rs
      return value :: values

/-- The default handling of a node over its resolved operands; `none` is unhandled. -/
def resolveNode
    (scope : Scope) :
    RelExpr → List (Except Error RelExpr) → Except Error (Option RelExpr)
  | .member item property, _ => do
      let entry ← (scope.item item).mapError .plan
      match entry.entity.property? property with
      | some found => return some (.column entry.tableAlias found.column)
      | none => .error (.plan (.unknownProperty entry.entity.name property))
  | .column tableAlias name, _ => .ok (some (.column tableAlias name))
  | .literal value, _ => .ok (some (.literal value))
  | .parameter name, _ => .ok (some (.parameter name))
  | .compare _ op _, [left, right] => do return some (.compare (← left) op (← right))
  | .and _ _, [left, right] => do return some (.and (← left) (← right))
  | .or _ _, [left, right] => do return some (.or (← left) (← right))
  | .not _, [operand] => do return some (.not (← operand))
  | .function name args, operands => do
      if isKnownFunction name args.length then
        return some (.function name (← collect operands))
      else
        return none
  | _, _ => .ok none

/-- The error for a node that nobody handles. -/
def unsupported : RelExpr → PlanError
  | .function name args => .unsupportedFunction name args.length
  | .membership _ valueSet _ => .unsupportedMembership valueSet
  | _ => .other "no SQL translation"

/-- What the default handling or else a rule makes of a node. -/
def settle
    (rules : List ResolutionRule)
    (scope : Scope)
    (node : RelExpr)
    (operands : List (Except Error RelExpr)) :
    Except Error RelExpr := do
  match ← resolveNode scope node operands with
  | some resolved => return resolved
  | none =>
      match ← ResolutionRule.offer scope node operands rules with
      | some resolved => return resolved
      | none => .error (.plan node.unsupported)

mutual

/-- The resolved form of an expression. -/
def resolve
    (rules : List ResolutionRule)
    (scope : Scope) :
    RelExpr → Except Error RelExpr
  | .member item property => settle rules scope (.member item property) []
  | .column tableAlias name => settle rules scope (.column tableAlias name) []
  | .literal value => settle rules scope (.literal value) []
  | .parameter name => settle rules scope (.parameter name) []
  | .compare left op right =>
      settle rules scope (.compare left op right)
        [resolve rules scope left, resolve rules scope right]
  | .and left right =>
      settle rules scope (.and left right)
        [resolve rules scope left, resolve rules scope right]
  | .or left right =>
      settle rules scope (.or left right)
        [resolve rules scope left, resolve rules scope right]
  | .not operand => settle rules scope (.not operand) [resolve rules scope operand]
  | .function name args =>
      settle rules scope (.function name args) (resolveAll rules scope args)
  | .membership operand valueSet search =>
      settle rules scope (.membership operand valueSet search)
        [resolve rules scope operand]

/-- The resolved forms of arguments. -/
def resolveAll
    (rules : List ResolutionRule)
    (scope : Scope) :
    List RelExpr → List (Except Error RelExpr)
  | [] => []
  | arg :: args => resolve rules scope arg :: resolveAll rules scope args

end

/-- The direct operands of a node. -/
def operands : RelExpr → List RelExpr
  | .compare left _ right => [left, right]
  | .and left right => [left, right]
  | .or left right => [left, right]
  | .not operand => [operand]
  | .function _ args => args
  | .membership operand _ _ => [operand]
  | .member .. | .column .. | .literal _ | .parameter _ => []

/-- The default handling of a node whose operands are resolved with the rules. -/
def resolveDefault
    (rules : List ResolutionRule)
    (scope : Scope)
    (node : RelExpr) :
    Except Error (Option RelExpr) :=
  resolveNode scope node (node.operands.map (resolve rules scope))

end RelExpr

end FullTextQuery
