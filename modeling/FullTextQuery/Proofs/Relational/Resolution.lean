import FullTextQuery.Extension.Search
import FullTextQuery.Proofs.Outcome
import FullTextQuery.Proofs.Pointwise
import FullTextQuery.Proofs.Relational.Nodes

namespace FullTextQuery

/-!
# What resolution makes of an expression

With the rule that lets membership tests through, an expression has a resolved
form exactly if its members name properties and its functions are known.  The
form is given here without rules, by recursion on the expression.
-/

namespace RelExpr

mutual

/-- The resolved form: columns for members, and everything else as it is. -/
def resolved?
    (scope : Scope) :
    RelExpr → Option RelExpr
  | .member item property => do
      let found ← scope.items.get? item
      let declared ← found.entity.property? property
      return .column found.tableAlias declared.column
  | .column tableAlias name => some (.column tableAlias name)
  | .literal value => some (.literal value)
  | .parameter name => some (.parameter name)
  | .compare left op right => do
      return .compare (← resolved? scope left) op (← resolved? scope right)
  | .and left right => do return .and (← resolved? scope left) (← resolved? scope right)
  | .or left right => do return .or (← resolved? scope left) (← resolved? scope right)
  | .not operand => do return .not (← resolved? scope operand)
  | .function name args =>
      if isKnownFunction name args.length then do
        return .function name (← resolvedAll? scope args)
      else
        none
  | .membership operand valueSet search => do
      return .membership (← resolved? scope operand) valueSet search

/-- The resolved forms of arguments. -/
def resolvedAll?
    (scope : Scope) :
    List RelExpr → Option (List RelExpr)
  | [] => some []
  | arg :: args => do
      return (← resolved? scope arg) :: (← resolvedAll? scope args)

end

/-- Arguments have resolved forms exactly if every single one has. -/
theorem resolvedAll?_eq_some
    {scope : Scope}
    {args results : List RelExpr} :
    resolvedAll? scope args = some results ↔
      List.Forall₂ (fun arg result => arg.resolved? scope = some result) args results := by
  induction args generalizing results with
  | nil =>
      simp [resolvedAll?, eq_comm]
  | cons arg args inductionHypothesis =>
      cases results with
      | nil => simp [resolvedAll?, Option.bind_eq_some_iff]
      | cons result results =>
          simp [resolvedAll?, Option.bind_eq_some_iff, inductionHypothesis]

/-- Arguments are resolved one by one. -/
theorem resolveAll_eq_map
    (rules : List ResolutionRule)
    (scope : Scope)
    (args : List RelExpr) :
    resolveAll rules scope args = args.map (resolve rules scope) := by
  induction args with
  | nil => rfl
  | cons arg args inductionHypothesis => simp [resolveAll, inductionHypothesis]

/-- Collecting results is working through what they are the results of. -/
theorem collect_map
    (f : α → Except Error RelExpr)
    (items : List α) :
    collect (items.map f) = items.mapM f := by
  induction items with
  | nil => rfl
  | cons item rest inductionHypothesis =>
      simp [collect, inductionHypothesis]

variable {scope : Scope}

section Settle

variable {rules : List ResolutionRule} {l r o : Except Error RelExpr}

theorem settle_compare
    {left right : RelExpr}
    {op : Comparison} :
    settle rules scope (.compare left op right) [l, r] =
      (do return .compare (← l) op (← r)) := by
  cases l <;> cases r <;> rfl

theorem settle_and
    {left right : RelExpr} :
    settle rules scope (.and left right) [l, r] = (do return .and (← l) (← r)) := by
  cases l <;> cases r <;> rfl

theorem settle_or
    {left right : RelExpr} :
    settle rules scope (.or left right) [l, r] = (do return .or (← l) (← r)) := by
  cases l <;> cases r <;> rfl

theorem settle_not
    {operand : RelExpr} :
    settle rules scope (.not operand) [o] = (do return .not (← o)) := by
  cases o <;> rfl

/-- A known function takes its resolved arguments; an unknown one is offered to the rules. -/
theorem settle_function
    {name : String}
    {args : List RelExpr}
    {operands : List (Except Error RelExpr)} :
    settle [Search.keepMembership] scope (.function name args) operands =
      if isKnownFunction name args.length then
        (do return .function name (← collect operands))
      else
        .error (.plan (.unsupportedFunction name args.length)) := by
  unfold settle resolveNode
  by_cases known : isKnownFunction name args.length
  · cases collected : collect operands <;> simp [known, collected]
  · simp [known, ResolutionRule.offer, Search.keepMembership, unsupported]

/-- A membership test takes its resolved operand. -/
theorem settle_membership
    {operand : RelExpr}
    {valueSet : String}
    {search : SearchId} :
    settle [Search.keepMembership] scope (.membership operand valueSet search) [o] =
      (do return .membership (← o) valueSet search) := by
  cases o <;> rfl

end Settle

/-- Resolution succeeds with the resolved form and with nothing else. -/
theorem resolve_eq_ok
    {e result : RelExpr} :
    e.resolve [Search.keepMembership] scope = .ok result ↔
      e.resolved? scope = some result := by
  induction e generalizing result with
  | member item property =>
      simp only [resolve, settle, resolveNode, Scope.item, resolved?]
      cases scope.items.get? item with
      | none =>
          simp [Except.mapError]
      | some found =>
          cases declared : found.entity.property? property <;>
            simp [Except.mapError, declared]
  | column tableAlias name =>
      simp [resolve, settle, resolveNode, resolved?]
  | literal value =>
      simp [resolve, settle, resolveNode, resolved?]
  | parameter name =>
      simp [resolve, settle, resolveNode, resolved?]
  | compare left op right leftHypothesis rightHypothesis =>
      simp [resolve, resolved?, settle_compare, Except.bind_eq_ok, Option.bind_eq_some_iff,
        leftHypothesis, rightHypothesis]
  | and left right leftHypothesis rightHypothesis =>
      simp [resolve, resolved?, settle_and, Except.bind_eq_ok, Option.bind_eq_some_iff,
        leftHypothesis, rightHypothesis]
  | or left right leftHypothesis rightHypothesis =>
      simp [resolve, resolved?, settle_or, Except.bind_eq_ok, Option.bind_eq_some_iff,
        leftHypothesis, rightHypothesis]
  | not operand operandHypothesis =>
      simp [resolve, resolved?, settle_not, Except.bind_eq_ok, Option.bind_eq_some_iff,
        operandHypothesis]
  | function name args argHypothesis =>
      rw [resolve, resolved?, settle_function, resolveAll_eq_map, collect_map]
      by_cases known : isKnownFunction name args.length
      · simp only [known, ↓reduceIte, Except.bind_eq_ok, Except.mapM_eq_ok,
          Except.pure_eq_ok, Option.bind_eq_bind, Option.bind_eq_some_iff,
          resolvedAll?_eq_some, Option.pure_def]
        simp only [List.forall₂_congr_of_mem fun arg member _ => argHypothesis arg member,
          Except.ok.injEq, Option.some.injEq]
      · simp [known]
  | membership operand valueSet search operandHypothesis =>
      simp [resolve, resolved?, settle_membership, Except.bind_eq_ok, Option.bind_eq_some_iff,
        operandHypothesis]

/-- Resolution fails only for a reason of planning. -/
theorem failsOnlyBy_resolve
    (e : RelExpr) :
    (e.resolve [Search.keepMembership] scope).FailsOnlyBy Error.IsPlan := by
  induction e with
  | member item property =>
      intro cause failed
      simp only [resolve, settle, resolveNode, Scope.item] at failed
      cases inScope : scope.items.get? item with
      | none =>
          simp only [inScope, Except.mapError, Except.error_bind, Except.error.injEq] at failed
          exact ⟨_, failed.symm⟩
      | some found =>
          cases declared : found.entity.property? property <;>
            simp [inScope, declared, Except.mapError] at failed
          exact ⟨_, failed.symm⟩
  | column tableAlias name => exact .ok
  | literal value => exact .ok
  | parameter name => exact .ok
  | compare left op right leftHypothesis rightHypothesis =>
      rw [resolve, settle_compare]
      exact leftHypothesis.bind fun _ _ => rightHypothesis.bind fun _ _ => .ok
  | and left right leftHypothesis rightHypothesis =>
      rw [resolve, settle_and]
      exact leftHypothesis.bind fun _ _ => rightHypothesis.bind fun _ _ => .ok
  | or left right leftHypothesis rightHypothesis =>
      rw [resolve, settle_or]
      exact leftHypothesis.bind fun _ _ => rightHypothesis.bind fun _ _ => .ok
  | not operand operandHypothesis =>
      rw [resolve, settle_not]
      exact operandHypothesis.bind fun _ _ => .ok
  | function name args argHypothesis =>
      rw [resolve, settle_function, resolveAll_eq_map, collect_map]
      split
      · exact (Except.FailsOnlyBy.mapM argHypothesis).bind fun _ _ => .ok
      · intro cause failed
        exact ⟨_, (Except.error.inj failed).symm⟩
  | membership operand valueSet search operandHypothesis =>
      rw [resolve, settle_membership]
      exact operandHypothesis.bind fun _ _ => .ok

end RelExpr

end FullTextQuery
