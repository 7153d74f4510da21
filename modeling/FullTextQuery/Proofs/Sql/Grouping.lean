import FullTextQuery.Proofs.Sql.Tokens

namespace FullTextQuery

/-!
# How the text of an expression is grouped

Every operator but a membership test is written with parentheses of its own.
The membership tests at the end of a text therefore stand beside whatever is
before it: the text is its core with tests behind it, and behind a comparison
the tests of the right side apply to the whole comparison.
-/

namespace Binary64

variable [NumeralReading]

/-- The number that a store takes the literal of a finite number for. -/
def readBack
    (x : Binary64) :
    Binary64 :=
  NumeralReading.real x.negative (Sql.literalNumeral x)

/-- Whether a number is finite, so that it has a literal, and a store takes this for the number. -/
def ReadsBack
    (x : Binary64) :
    Prop :=
  x.code < infinityCode ∧ x.readBack = x

instance
    (x : Binary64) :
    Decidable x.ReadsBack :=
  inferInstanceAs (Decidable (x.code < infinityCode ∧ x.readBack = x))

/-- A store that takes a literal for the nearest number reads back every finite number. -/
theorem readsBack_of_nearest
    {x : Binary64}
    (nearest : x.readBack = ofNumeral x.negative (Sql.literalNumeral x))
    (finite : x.code < infinityCode) :
    x.ReadsBack :=
  ⟨finite, nearest.trans (Sql.literalNumeral_spec finite).1⟩

end Binary64

namespace Sql

/-- The term that a literal is read as; infinity and what is not a number are names. -/
def literalTerm?
    [NumeralReading] :
    Value → Option Term
  | .real x =>
      if x.isNaN then some (.name "NaN")
      else if x.isInfinite then (if x.negative then none else some (.name "inf"))
      else some (.literal (.real x.readBack))
  | value => some (.literal value)

section Literals

variable [NumeralReading] {x : Binary64} {term : Term}

/-- A real that reads back is read as itself. -/
theorem literalTerm?_of_readsBack
    (readsBack : x.ReadsBack) :
    literalTerm? (.real x) = some (.literal (.real x)) := by
  have isNumber := Binary64.code_lt_infinityCode_iff.mp readsBack.1
  simp [literalTerm?, isNumber, readsBack.2]

/-- Any real is read as a name or as some real. -/
theorem literalTerm?_real_eq_some
    (reads : literalTerm? (.real x) = some term) :
    (∃ word, term = .name word) ∨ ∃ y, term = .literal (.real y) := by
  simp only [literalTerm?] at reads
  split at reads
  · exact .inl ⟨_, (Option.some.inj reads).symm⟩
  · split at reads
    · split at reads
      · cases reads
      · exact .inl ⟨_, (Option.some.inj reads).symm⟩
    · exact .inr ⟨_, (Option.some.inj reads).symm⟩

end Literals

/-- The operator that the symbol of a comparison is read as. -/
def comparisonOperator : Comparison → Operator
  | .eq => .equal
  | .notEq => .notEqual
  | .lt => .less
  | .ltEq => .lessEqual
  | .gt => .greater
  | .gtEq => .greaterEqual
  | .like => .like

/-- The operator that the operator between two operands is read as. -/
def operatorOf
    (op : Comparison)
    (right : RelExpr) :
    Operator :=
  match op, right with
  | .eq, .literal .null => .same
  | .notEq, .literal .null => .notSame
  | op, _ => comparisonOperator op

namespace Term

/-- A term with membership tests behind it. -/
def withTests
    (term : Term)
    (valueSets : List String) :
    Term :=
  valueSets.foldl .inArray term

end Term

end Sql

namespace RelExpr

open Sql

/-- The expression before its last membership tests. -/
def core : RelExpr → RelExpr
  | .membership operand _ _ => core operand
  | e => e

/-- The value sets of the last membership tests of an expression, the first applied one first. -/
def tests : RelExpr → List String
  | .membership operand valueSet _ => tests operand ++ [valueSet]
  | _ => []

/-- An expression is written as its core with its last tests behind it. -/
theorem tokens_eq_core
    (e : RelExpr) :
    e.tokens = e.core.tokens ++ e.tests.flatMap arrayTokens := by
  induction e with
  | membership operand valueSet search same => simp [tokens, core, tests, same]
  | _ => simp [core, tests]

/-- Each of the last tests of an expression takes five tokens. -/
theorem length_tokens
    (e : RelExpr) :
    e.tokens.length = e.core.tokens.length + 5 * e.tests.length := by
  have each : ∀ valueSets : List String,
      (valueSets.flatMap arrayTokens).length = 5 * valueSets.length := by
    intro valueSets
    induction valueSets with
    | nil => rfl
    | cons valueSet valueSets length =>
        rw [List.flatMap_cons, List.length_append, length, List.length_cons, arrayTokens]
        simp only [List.length_cons, List.length_nil]
        omega
  rw [tokens_eq_core, List.length_append, each]

variable [NumeralReading]

mutual

/-- The term that the text of an expression before its last membership tests is read as. -/
def core? : RelExpr → Option Term
  | .member .. => none
  | .column tableAlias name => some (.column tableAlias name)
  | .literal value => literalTerm? value
  | .parameter name => some (.parameter name)
  | .compare left op right => do
      let leftCore ← core? left
      let rightCore ← core? right
      return (Term.compare (leftCore.withTests left.tests) (operatorOf op right)
        rightCore).withTests right.tests
  | .and left right => do
      let leftCore ← core? left
      let rightCore ← core? right
      return .and (leftCore.withTests left.tests) (rightCore.withTests right.tests)
  | .or left right => do
      let leftCore ← core? left
      let rightCore ← core? right
      return .or (leftCore.withTests left.tests) (rightCore.withTests right.tests)
  | .not operand => do
      let core ← core? operand
      return .not (core.withTests operand.tests)
  | .function name args => do
      return .call (upperName name) (← groupedAll? args)
  | .membership operand _ _ => core? operand

/-- The terms that arguments are read as. -/
def groupedAll? : List RelExpr → Option (List Term)
  | [] => some []
  | e :: es => do
      let core ← core? e
      return core.withTests e.tests :: (← groupedAll? es)

end

/-- The term that the text of an expression is read as. -/
def grouped?
    (e : RelExpr) :
    Option Term :=
  e.core?.map fun core => core.withTests e.tests

section Grouped

variable {left right operand : RelExpr} {op : Comparison}

/-- A comparison without tests behind its right side compares what its sides are read as. -/
theorem grouped?_compare
    (noTests : right.tests = []) :
    (RelExpr.compare left op right).grouped? = do
      return .compare (← left.grouped?) (operatorOf op right) (← right.grouped?) := by
  simp only [grouped?, core?, tests, noTests]
  cases left.core? <;> cases right.core? <;> rfl

/-- A conjunction joins what its sides are read as. -/
theorem grouped?_and :
    (RelExpr.and left right).grouped? = do
      return .and (← left.grouped?) (← right.grouped?) := by
  simp only [grouped?, core?, tests]
  cases left.core? <;> cases right.core? <;> rfl

/-- A disjunction joins what its sides are read as. -/
theorem grouped?_or :
    (RelExpr.or left right).grouped? = do
      return .or (← left.grouped?) (← right.grouped?) := by
  simp only [grouped?, core?, tests]
  cases left.core? <;> cases right.core? <;> rfl

/-- A negation negates what its operand is read as. -/
theorem grouped?_not :
    (RelExpr.not operand).grouped? = operand.grouped?.map .not := by
  simp only [grouped?, core?, tests]
  cases operand.core? <;> rfl

/-- A call has what its arguments are read as for arguments. -/
theorem grouped?_function
    {name : String}
    {args : List RelExpr} :
    (RelExpr.function name args).grouped? =
      (args.mapM grouped?).map (.call (upperName name)) := by
  have each : groupedAll? args = args.mapM grouped? := by
    induction args with
    | nil => rfl
    | cons arg args inductionHypothesis =>
        rw [groupedAll?, inductionHypothesis, List.mapM_cons, grouped?]
        cases arg.core? <;> rfl
  have noTests : (RelExpr.function name args).tests = [] := rfl
  rw [grouped?, core?, noTests, each]
  cases args.mapM grouped? <;> rfl

end Grouped

end RelExpr

end FullTextQuery
