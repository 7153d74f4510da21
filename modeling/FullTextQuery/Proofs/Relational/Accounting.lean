import Mathlib.Algebra.Ring.Nat
import FullTextQuery.Proofs.Query.Nodes
import FullTextQuery.Proofs.Relational.Lowering
import FullTextQuery.Proofs.Relational.Resolution

namespace FullTextQuery

/-!
# Membership tests that are accounted for

A rule accounts for its membership tests if it puts a search on record for each
test that it adds to those of the operands.  Where all rules do, lowering an
expression puts at least as many searches on record as the result has membership
tests.  Resolution adds none if no rule does.
-/

namespace RelExpr

/-- The number of membership tests in an expression. -/
def testCount
    (e : RelExpr) :
    Nat :=
  e.memberships.length

section TestCount

variable {left right operand : RelExpr}

@[simp] theorem testCount_member
    {item property : String} :
    (RelExpr.member item property).testCount = 0 :=
  rfl

@[simp] theorem testCount_column
    {tableAlias name : String} :
    (RelExpr.column tableAlias name).testCount = 0 :=
  rfl

@[simp] theorem testCount_literal
    {value : Value} :
    (RelExpr.literal value).testCount = 0 :=
  rfl

@[simp] theorem testCount_parameter
    {name : String} :
    (RelExpr.parameter name).testCount = 0 :=
  rfl

@[simp] theorem testCount_compare
    {op : Comparison} :
    (RelExpr.compare left op right).testCount = left.testCount + right.testCount :=
  List.length_append

@[simp] theorem testCount_and :
    (RelExpr.and left right).testCount = left.testCount + right.testCount :=
  List.length_append

@[simp] theorem testCount_or :
    (RelExpr.or left right).testCount = left.testCount + right.testCount :=
  List.length_append

@[simp] theorem testCount_not :
    (RelExpr.not operand).testCount = operand.testCount :=
  rfl

@[simp] theorem testCount_function
    {name : String}
    {args : List RelExpr} :
    (RelExpr.function name args).testCount = (args.map testCount).sum := by
  rw [testCount, memberships, membershipsList_eq_flatMap, List.length_flatMap]
  rfl

@[simp] theorem testCount_membership
    {valueSet : String}
    {search : SearchId} :
    (RelExpr.membership operand valueSet search).testCount = operand.testCount + 1 := by
  simp [testCount, memberships]

end TestCount

end RelExpr

namespace Lowering

/--
Beside some tests that are accounted for already, a lowering puts a search on
record for every test of its value.
-/
def Accounts
    (already : Nat)
    (tests : α → Nat)
    (lowering : Lowering α) :
    Prop :=
  ∀ before value after, Yields lowering before value after →
    before.recorded.length + tests value ≤ after.recorded.length + already

namespace Accounts

variable {already : Nat} {tests : α → Nat} {lowering : Lowering α}

/-- A value with few tests accounts for them. -/
theorem pure
    {value : α}
    (few : tests value ≤ already) :
    Accounts already tests (Pure.pure value) := by
  intro before result after yields
  obtain ⟨rfl, rfl⟩ := yields_pure.mp yields
  exact Nat.add_le_add_left few _

/-- Where nothing is handed out, nothing has to be accounted for. -/
theorem throw
    {e : Error} :
    Accounts already tests (throw e) :=
  fun _ _ _ yields => absurd yields not_yields_throw

/-- What comes behind a lowering may rely on the tests that this one has accounted for. -/
theorem bind
    {first : Lowering α}
    {next : α → Lowering β}
    {all : β → Nat}
    (firstAccounts : Accounts already tests first)
    (nextAccounts : ∀ a, Accounts (tests a) all (next a)) :
    Accounts already all (first >>= next) := by
  intro before value after yields
  obtain ⟨a, between, firstYields, nextYields⟩ := yields_bind.mp yields
  have firstCounts := firstAccounts _ _ _ firstYields
  have nextCounts := nextAccounts a _ _ _ nextYields
  omega

/-- An outcome that is only passed on has no tests and puts nothing on record. -/
theorem ofExcept_bind
    {outcome : Except Error β}
    {next : β → Lowering α}
    (each : ∀ b, Accounts already tests (next b)) :
    Accounts already tests (Lowering.ofExcept outcome >>= next) := by
  intro before value after yields
  obtain ⟨b, between, passedOn, nextYields⟩ := yields_bind.mp yields
  obtain ⟨_, rfl⟩ := yields_ofExcept.mp passedOn
  exact each b _ _ _ nextYields

/-- Earlier tests, which are accounted for already, do no harm. -/
theorem behind
    (accounts : Accounts 0 tests lowering)
    (earlier : Nat) :
    Accounts earlier (fun value => earlier + tests value) lowering := by
  intro before value after yields
  have counts := accounts _ _ _ yields
  simp only
  omega

/-- Lowerings one after another account for their tests together. -/
theorem sequence
    (tests : α → Nat)
    {lowerings : List (Lowering α)}
    (each : ∀ lowering ∈ lowerings, Accounts 0 tests lowering) :
    Accounts 0 (fun values => (values.map tests).sum) (Lowering.sequence lowerings) := by
  induction lowerings with
  | nil =>
      exact pure (by simp)
  | cons first rest inductionHypothesis =>
      obtain ⟨firstAccounts, restAccounts⟩ := List.forall_mem_cons.mp each
      refine firstAccounts.bind fun value => ?_
      exact ((inductionHypothesis restAccounts).behind (tests value)).bind fun values =>
        pure (by simp)

end Accounts

end Lowering

namespace LoweringRule

open Lowering

/-- A rule accounts for the tests it adds, if the operands account for theirs. -/
def Accounts
    (rule : LoweringRule) :
    Prop :=
  ∀ scope e operands, (∀ operand ∈ operands, Lowering.Accounts 0 RelExpr.testCount operand) →
    Lowering.Accounts 0 (fun claimed? => (claimed?.toList.map RelExpr.testCount).sum)
      (rule scope e operands)

variable {rules : List LoweringRule} {scope : Scope}

/-- Offered to rules that account for their tests, an expression accounts for its own. -/
theorem accounts_offer
    (each : ∀ rule ∈ rules, rule.Accounts)
    (e : Expr)
    {operands : List (Lowering RelExpr)}
    {default : Lowering RelExpr}
    (operandsAccount : ∀ operand ∈ operands, Lowering.Accounts 0 RelExpr.testCount operand)
    (defaultAccounts : Lowering.Accounts 0 RelExpr.testCount default) :
    Lowering.Accounts 0 RelExpr.testCount (offer scope e operands default rules) := by
  induction rules with
  | nil =>
      exact defaultAccounts
  | cons rule others inductionHypothesis =>
      obtain ⟨ruleAccounts, othersAccount⟩ := List.forall_mem_cons.mp each
      refine (ruleAccounts scope e operands operandsAccount).bind fun claimed? => ?_
      cases claimed? with
      | some claimed => exact .pure (by simp)
      | none => exact inductionHypothesis othersAccount

end LoweringRule

namespace Expr

open Lowering

variable {rules : List LoweringRule} {scope : Scope}

/-- Two operands that account for their tests do so one after the other. -/
theorem accounts_both
    (combine : RelExpr → RelExpr → RelExpr)
    {left right : Lowering RelExpr}
    (leftAccounts : Accounts 0 RelExpr.testCount left)
    (rightAccounts : Accounts 0 RelExpr.testCount right)
    (sum : ∀ l r, (combine l r).testCount = l.testCount + r.testCount) :
    Accounts 0 RelExpr.testCount (do return combine (← left) (← right)) := by
  refine leftAccounts.bind fun l => ?_
  exact (rightAccounts.behind l.testCount).bind fun r => .pure (Nat.le_of_eq (sum l r))

/-- With rules that account for their tests, every expression is lowered so. -/
theorem accounts_lower
    (each : ∀ rule ∈ rules, rule.Accounts)
    (e : Expr) :
    Accounts 0 RelExpr.testCount (e.lower rules scope) := by
  have offer : ∀ e {operands default},
      (∀ operand ∈ operands, Accounts 0 RelExpr.testCount operand) →
      Accounts 0 RelExpr.testCount default →
      Accounts 0 RelExpr.testCount (LoweringRule.offer scope e operands default rules) :=
    LoweringRule.accounts_offer each
  induction e with
  | item name =>
      exact offer _ (by simp) .throw
  | member source property =>
      exact offer _ (by simp)
        (.ofExcept_bind fun _ => .pure (by simp))
  | literal value =>
      exact offer _ (by simp) (.pure (by simp))
  | parameter name =>
      exact offer _ (by simp) (.pure (by simp))
  | compare left op right leftAccounts rightAccounts =>
      exact offer _ (by simp [leftAccounts, rightAccounts])
        (accounts_both (.compare · op ·) leftAccounts rightAccounts (by simp))
  | and left right leftAccounts rightAccounts =>
      exact offer _ (by simp [leftAccounts, rightAccounts])
        (accounts_both .and leftAccounts rightAccounts (by simp))
  | or left right leftAccounts rightAccounts =>
      exact offer _ (by simp [leftAccounts, rightAccounts])
        (accounts_both .or leftAccounts rightAccounts (by simp))
  | not operand operandAccounts =>
      exact offer _ (by simp [operandAccounts])
        (operandAccounts.bind fun o => .pure (by simp))
  | call function args argsAccount =>
      have operandsAccount : ∀ operand ∈ args.map (Expr.lower rules scope),
          Accounts 0 RelExpr.testCount operand := by
        simpa using argsAccount
      rw [Expr.lower, Expr.lowerAll_eq_map]
      exact offer _ operandsAccount
        ((Accounts.sequence RelExpr.testCount operandsAccount).bind fun values => .pure (by simp))

end Expr

namespace Search

/-- The rule for search calls puts the search of its test on record. -/
theorem accounts_lowerCall :
    lowerCall.Accounts := by
  intro scope e operands _ before claimed? after yields
  cases isSearch : e.searchCall? with
  | none =>
      simp only [lowerCall, isSearch, Lowering.yields_pure] at yields
      obtain ⟨rfl, rfl⟩ := yields
      simp
  | some call =>
      obtain ⟨item, phrase⟩ := call
      obtain ⟨_, _, _, _, _, _, rfl, rfl⟩ :=
        (Lowering.yields_lowerCall_of_search isSearch).mp yields
      simp [PlannedSearches.add, PlannedSearches.advance]

end Search

namespace ResolutionRule

/-- What an expression is resolved to has no more tests than the expression. -/
def NoMoreTests
    (e : RelExpr)
    (outcome : Except Error RelExpr) :
    Prop :=
  ∀ result, outcome = .ok result → result.testCount ≤ e.testCount

/-- A rule adds no tests to those of a node, if resolving the operands adds none to theirs. -/
def KeepsTests
    (rule : ResolutionRule) :
    Prop :=
  ∀ scope (node : RelExpr) outcomes handled,
    List.Forall₂ NoMoreTests node.operands outcomes →
    rule scope node outcomes = .ok (some handled) →
    handled.testCount ≤ node.testCount

/-- Offered to rules that keep the tests, a node gets no more of them. -/
theorem testCount_offer_le
    {rules : List ResolutionRule}
    (each : ∀ rule ∈ rules, rule.KeepsTests)
    {scope : Scope}
    {node handled : RelExpr}
    {outcomes : List (Except Error RelExpr)}
    (operands : List.Forall₂ NoMoreTests node.operands outcomes)
    (success : offer scope node outcomes rules = .ok (some handled)) :
    handled.testCount ≤ node.testCount := by
  induction rules with
  | nil =>
      simp [offer] at success
  | cons rule others inductionHypothesis =>
      obtain ⟨ruleKeeps, othersKeep⟩ := List.forall_mem_cons.mp each
      obtain ⟨handled?, ruleHandled, offered⟩ := Except.bind_eq_ok.mp success
      cases handled? with
      | some ofRule =>
          obtain rfl : ofRule = handled := by simpa using offered
          exact ruleKeeps scope node outcomes _ operands ruleHandled
      | none =>
          exact inductionHypothesis othersKeep offered

end ResolutionRule

namespace RelExpr

open ResolutionRule

/-- Arguments that are resolved without more tests have no more of them together. -/
theorem sum_testCount_collect_le
    {args results : List RelExpr}
    {outcomes : List (Except Error RelExpr)}
    (operands : List.Forall₂ NoMoreTests args outcomes)
    (collected : collect outcomes = .ok results) :
    (results.map testCount).sum ≤ (args.map testCount).sum := by
  induction operands generalizing results with
  | nil =>
      obtain rfl : [] = results := by simpa [collect] using collected
      exact Nat.le_refl _
  | cons argKeeps _ inductionHypothesis =>
      simp only [collect, Except.bind_eq_ok, Except.pure_eq_ok, Except.ok.injEq] at collected
      obtain ⟨result, isResult, others, areOthers, rfl⟩ := collected
      simp only [List.map_cons, List.sum_cons]
      exact Nat.add_le_add (argKeeps result isResult) (inductionHypothesis areOthers)

/-- The default handling of a node keeps the tests of its operands. -/
theorem testCount_resolveNode_le
    {scope : Scope}
    {node handled : RelExpr}
    {outcomes : List (Except Error RelExpr)}
    (operands : List.Forall₂ NoMoreTests node.operands outcomes)
    (success : resolveNode scope node outcomes = .ok (some handled)) :
    handled.testCount ≤ node.testCount := by
  have both : ∀ {left right : RelExpr}, List.Forall₂ NoMoreTests [left, right] outcomes →
      ∃ l r, outcomes = [l, r] ∧ NoMoreTests left l ∧ NoMoreTests right r := by
    rintro left right (_ | ⟨leftKeeps, _ | ⟨rightKeeps, _ | _⟩⟩)
    exact ⟨_, _, rfl, leftKeeps, rightKeeps⟩
  have combined : ∀ {left right l r} (combine : RelExpr → RelExpr → RelExpr),
      NoMoreTests left l → NoMoreTests right r →
      (∀ a b, (combine a b).testCount = a.testCount + b.testCount) →
      (do return some (combine (← l) (← r))) = .ok (some handled) →
      handled.testCount ≤ left.testCount + right.testCount := by
    intro left right l r combine leftKeeps rightKeeps sum both
    simp only [Except.bind_eq_ok, Except.pure_eq_ok, Except.ok.injEq, Option.some.injEq] at both
    obtain ⟨first, isFirst, second, isSecond, rfl⟩ := both
    rw [sum]
    exact Nat.add_le_add (leftKeeps first isFirst) (rightKeeps second isSecond)
  cases node with
  | member item property =>
      simp only [resolveNode, Except.bind_eq_ok] at success
      obtain ⟨found, _, declared⟩ := success
      split at declared
      · obtain rfl := Option.some.inj (Except.ok.inj declared)
        simp
      · cases declared
  | column tableAlias name =>
      obtain rfl := Option.some.inj (Except.ok.inj success)
      simp
  | literal value =>
      obtain rfl := Option.some.inj (Except.ok.inj success)
      simp
  | parameter name =>
      obtain rfl := Option.some.inj (Except.ok.inj success)
      simp
  | compare left op right =>
      obtain ⟨l, r, rfl, leftKeeps, rightKeeps⟩ := both operands
      simpa using combined (.compare · op ·) leftKeeps rightKeeps (by simp) success
  | and left right =>
      obtain ⟨l, r, rfl, leftKeeps, rightKeeps⟩ := both operands
      simpa using combined .and leftKeeps rightKeeps (by simp) success
  | or left right =>
      obtain ⟨l, r, rfl, leftKeeps, rightKeeps⟩ := both operands
      simpa using combined .or leftKeeps rightKeeps (by simp) success
  | not operand =>
      obtain _ | ⟨operandKeeps, _ | _⟩ := operands
      simp only [resolveNode, Except.bind_eq_ok, Except.pure_eq_ok, Except.ok.injEq,
        Option.some.injEq] at success
      obtain ⟨result, isResult, rfl⟩ := success
      simpa using operandKeeps result isResult
  | function name args =>
      simp only [resolveNode] at success
      split at success
      · simp only [Except.bind_eq_ok, Except.pure_eq_ok, Except.ok.injEq,
          Option.some.injEq] at success
        obtain ⟨results, collected, rfl⟩ := success
        simpa [RelExpr.operands] using sum_testCount_collect_le operands collected
      · simp at success
  | membership operand valueSet search =>
      simp [resolveNode] at success

/-- With rules that keep the tests, the resolved form of an expression has no more of them. -/
theorem testCount_resolve_le
    {rules : List ResolutionRule}
    (each : ∀ rule ∈ rules, rule.KeepsTests)
    {scope : Scope}
    (e : RelExpr) :
    NoMoreTests e (e.resolve rules scope) := by
  have settles : ∀ {node : RelExpr} {outcomes},
      List.Forall₂ NoMoreTests node.operands outcomes →
      NoMoreTests node (settle rules scope node outcomes) := by
    intro node outcomes operands result success
    obtain ⟨default?, resolved, settled⟩ := Except.bind_eq_ok.mp success
    cases default? with
    | some byDefault =>
        obtain rfl : byDefault = result := by simpa using settled
        exact testCount_resolveNode_le operands resolved
    | none =>
        obtain ⟨handled?, offered, handled⟩ := Except.bind_eq_ok.mp settled
        cases handled? with
        | some byRules =>
            obtain rfl : byRules = result := by simpa using handled
            exact testCount_offer_le each operands offered
        | none =>
            simp at handled
  induction e with
  | member item property => exact settles .nil
  | column tableAlias name => exact settles .nil
  | literal value => exact settles .nil
  | parameter name => exact settles .nil
  | compare left op right leftKeeps rightKeeps =>
      exact settles (.cons leftKeeps (.cons rightKeeps .nil))
  | and left right leftKeeps rightKeeps =>
      exact settles (.cons leftKeeps (.cons rightKeeps .nil))
  | or left right leftKeeps rightKeeps =>
      exact settles (.cons leftKeeps (.cons rightKeeps .nil))
  | not operand operandKeeps =>
      exact settles (.cons operandKeeps .nil)
  | function name args argsKeep =>
      rw [resolve, resolveAll_eq_map]
      refine settles (List.forall₂_map_right_iff.mpr ?_)
      exact List.forall₂_same.mpr argsKeep
  | membership operand valueSet search operandKeeps =>
      exact settles (.cons operandKeeps .nil)

end RelExpr

namespace Search

/-- The rule that lets membership tests through keeps them. -/
theorem keepsTests_keepMembership :
    keepMembership.KeepsTests := by
  intro scope node outcomes handled operands success
  unfold keepMembership at success
  split at success
  · obtain _ | ⟨operandKeeps, _ | _⟩ := operands
    simp only [Except.bind_eq_ok, Except.pure_eq_ok, Except.ok.injEq,
      Option.some.injEq] at success
    obtain ⟨result, isResult, rfl⟩ := success
    simpa using operandKeeps result isResult
  · simp at success

end Search

end FullTextQuery
