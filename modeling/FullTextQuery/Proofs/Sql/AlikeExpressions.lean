import FullTextQuery.Proofs.Sql.Grouping
import FullTextQuery.Proofs.Store.AlikeSelections

namespace FullTextQuery

/-!
# Relational expressions that come to the same

Two relational expressions, each with what is bound to its parameters, whose texts are read
as terms that stand for the same.
-/

open Sql (Term operatorOf literalTerm?)
open Store (Bindings AlikeTerms)

namespace RelExpr

/-- An operator is read as it is unless the literal null is on the right. -/
theorem operatorOf_of_ne_null
    {right : RelExpr}
    (notNull : right ≠ .literal .null)
    (op : Comparison) :
    operatorOf op right = Sql.comparisonOperator op := by
  unfold operatorOf
  split
  · exact absurd rfl notNull
  · exact absurd rfl notNull
  · rfl

/-- The operator of a comparison depends on whether its right side is the null literal. -/
theorem operatorOf_congr
    {right otherRight : RelExpr}
    (sameNull : otherRight = .literal .null ↔ right = .literal .null)
    (op : Comparison) :
    operatorOf op otherRight = operatorOf op right := by
  by_cases isNull : right = .literal .null
  · rw [isNull, sameNull.mpr isNull]
  · rw [operatorOf_of_ne_null isNull, operatorOf_of_ne_null (sameNull.not.mpr isNull)]

/-- A test is neither false in any case nor a place, whatever it tests. -/
theorem ordinary_withTests
    {core : Term}
    (single : core.isNever = false ∧ Store.resultPlace? core = none)
    (valueSets : List String) :
    (core.withTests valueSets).isNever = false ∧
      Store.resultPlace? (core.withTests valueSets) = none := by
  rcases List.eq_nil_or_concat' valueSets with noTests | ⟨others, last, someTests⟩
  · rw [noTests]
    exact single
  · rw [someTests, Term.withTests, List.foldl_append]
    exact ⟨rfl, rfl⟩

variable [NumeralReading]

/-- Two expressions with the same tests behind cores that are read as terms alike. -/
structure Alike
    (lenient : Prop)
    (bindings otherBindings : Bindings)
    (e other : RelExpr) :
    Prop where
  tests : other.tests = e.tests
  core : Option.Rel (AlikeTerms lenient bindings otherBindings) e.core? other.core?

/-- Whether the second of two expressions is false in any case only if the first is. -/
def NeverAlike
    (lenient : Prop)
    (e other : RelExpr) :
    Prop :=
  ∀ term ∈ e.grouped?, ∀ otherTerm ∈ other.grouped?,
    otherTerm.isNever = true → term.isNever = true ∨ lenient

/-- Whether two expressions, as sort terms, name the same place among the results, or none. -/
def PlaceAlike
    (e other : RelExpr) :
    Prop :=
  ∀ term ∈ e.grouped?, ∀ otherTerm ∈ other.grouped?,
    Store.resultPlace? otherTerm = Store.resultPlace? term

variable {lenient : Prop} {bindings otherBindings : Bindings} {left right otherLeft otherRight
  operand otherOperand : RelExpr}

section Ordinary

/-- Whether what an expression is read as is neither false in any case nor a place. -/
def Ordinary
    (e : RelExpr) :
    Prop :=
  ∀ term ∈ e.grouped?, term.isNever = false ∧ Store.resultPlace? term = none

/-- With tests behind it or not, what is read as no literal and no conjunction is ordinary. -/
theorem ordinary_of_core?
    {e : RelExpr}
    (single : ∀ term ∈ e.core?, term.isNever = false ∧ Store.resultPlace? term = none) :
    e.Ordinary := by
  intro term isTerm
  obtain ⟨core, isCore, rfl⟩ := Option.map_eq_some_iff.mp isTerm
  exact ordinary_withTests (single core isCore) e.tests

/-- A comparison is neither a place nor false in any case. -/
theorem ordinary_compare
    (left : RelExpr)
    (op : Comparison)
    (right : RelExpr) :
    (RelExpr.compare left op right).Ordinary := by
  refine ordinary_of_core? fun core isCore => ?_
  obtain ⟨l, _, r, _, rfl⟩ : ∃ l ∈ left.core?, ∃ r ∈ right.core?,
      (Term.compare (l.withTests left.tests) (operatorOf op right) r).withTests right.tests =
        core := by
    simpa [core?, Option.bind_eq_some_iff] using isCore
  exact ordinary_withTests ⟨rfl, rfl⟩ right.tests

/-- A disjunction is neither a place nor false in any case. -/
theorem ordinary_or
    (left right : RelExpr) :
    (RelExpr.or left right).Ordinary := by
  refine ordinary_of_core? fun term isTerm => ?_
  obtain ⟨l, _, r, _, rfl⟩ : ∃ l ∈ left.core?, ∃ r ∈ right.core?,
      Term.or (l.withTests left.tests) (r.withTests right.tests) = term := by
    simpa [core?, Option.bind_eq_some_iff] using isTerm
  exact ⟨rfl, rfl⟩

/-- A negation is neither a place nor false in any case. -/
theorem ordinary_not
    (operand : RelExpr) :
    (RelExpr.not operand).Ordinary := by
  refine ordinary_of_core? fun term isTerm => ?_
  obtain ⟨o, _, rfl⟩ : ∃ o ∈ operand.core?, Term.not (o.withTests operand.tests) = term := by
    simpa [core?, Option.bind_eq_some_iff] using isTerm
  exact ⟨rfl, rfl⟩

/-- A call of a function is neither a place nor false in any case. -/
theorem ordinary_function
    (name : String)
    (args : List RelExpr) :
    (RelExpr.function name args).Ordinary := by
  refine ordinary_of_core? fun term isTerm => ?_
  obtain ⟨terms, _, rfl⟩ :
      ∃ terms ∈ groupedAll? args, Term.call (Sql.upperName name) terms = term := by
    simpa [core?, Option.bind_eq_some_iff] using isTerm
  exact ⟨rfl, rfl⟩

/-- A parameter is neither a place nor false in any case. -/
theorem ordinary_parameter
    (name : String) :
    (RelExpr.parameter name).Ordinary :=
  ordinary_of_core? fun term isTerm => by
    obtain rfl := Option.some.inj isTerm
    exact ⟨rfl, rfl⟩

variable {e other : RelExpr}

/-- What is ordinary is not false in any case. -/
theorem Ordinary.neverAlike
    (ordinary : other.Ordinary) :
    NeverAlike lenient e other := by
  intro _ _ otherTerm isOther never
  rw [(ordinary otherTerm isOther).1] at never
  cases never

/-- What is ordinary names no place. -/
theorem Ordinary.placeAlike
    (ordinary : e.Ordinary)
    (otherOrdinary : other.Ordinary) :
    PlaceAlike e other := by
  intro term isTerm otherTerm isOther
  rw [(ordinary term isTerm).2, (otherOrdinary otherTerm isOther).2]

end Ordinary

/-- An expression names the place that it names. -/
theorem placeAlike_refl
    (e : RelExpr) :
    PlaceAlike e e := by
  intro term isTerm otherTerm isOther
  rw [Option.mem_unique isTerm isOther]

/-- An expression is false in any case if it is. -/
theorem neverAlike_refl
    (e : RelExpr) :
    NeverAlike lenient e e := by
  intro term isTerm otherTerm isOther never
  obtain rfl := Option.mem_unique isTerm isOther
  exact .inl never

namespace Alike

variable (sameCells : ∀ valueSet, otherBindings.cells valueSet = bindings.cells valueSet)

section Tests

include sameCells

/-- Terms that come to the same still do with the same tests behind them. -/
theorem withTests
    {term other : Term}
    (alike : AlikeTerms lenient bindings otherBindings term other)
    (valueSets : List String) :
    AlikeTerms lenient bindings otherBindings (term.withTests valueSets)
      (other.withTests valueSets) := by
  induction valueSets generalizing term other with
  | nil => exact alike
  | cons valueSet valueSets inductionHypothesis =>
      exact inductionHypothesis (alike.inArray (sameCells valueSet))

/-- Expressions that come to the same are read as terms that stand for the same. -/
theorem grouped
    {e other : RelExpr}
    (alike : e.Alike lenient bindings otherBindings other) :
    Option.Rel (AlikeTerms lenient bindings otherBindings) e.grouped? other.grouped? := by
  rw [grouped?, grouped?, alike.tests]
  exact alike.core.map fun _ _ terms => withTests sameCells terms _

end Tests

/-- A column comes to the same as itself. -/
theorem column
    (tableAlias name : String) :
    (RelExpr.column tableAlias name).Alike lenient bindings otherBindings
      (.column tableAlias name) :=
  ⟨rfl, .some (.column tableAlias name)⟩

/-- A literal comes to the same as itself, also if it is read as a name. -/
theorem literal
    (value : Value) :
    (RelExpr.literal value).Alike lenient bindings otherBindings (.literal value) := by
  refine ⟨rfl, ?_⟩
  rw [core?]
  cases value with
  | real x =>
      rw [literalTerm?]
      split
      · exact .some (AlikeTerms.name "NaN")
      · split
        · split
          · exact .none
          · exact .some (AlikeTerms.name "inf")
        · exact .some (AlikeTerms.literal _)
  | null => exact .some (.literal _)
  | integer n => exact .some (.literal _)
  | text s => exact .some (.literal _)

/-- A parameter comes to the same under bindings that have the same cell for it. -/
theorem parameter
    {name : String}
    (sameCell : otherBindings.cell name = bindings.cell name) :
    (RelExpr.parameter name).Alike lenient bindings otherBindings (.parameter name) :=
  ⟨rfl, .some (.parameter sameCell)⟩

/-- A parameter and the literal that is bound to it, unless that is a real. -/
theorem parameter_literal
    {name : String}
    {value : Value}
    (isCell : bindings.cell name = Store.Cell.ofValue value)
    (notReal : ∀ x, value ≠ .real x) :
    (RelExpr.parameter name).Alike lenient bindings otherBindings (.literal value) := by
  refine ⟨rfl, ?_⟩
  have reads : (RelExpr.literal value).core? = some (.literal value) := by
    cases value with
    | real x => exact absurd rfl (notReal x)
    | _ => rfl
  rw [reads]
  exact .some (.parameter_literal isCell)

section Operators

include sameCells

/-- Comparisons with the same operator come to the same if their sides do. -/
theorem compare
    (leftAlike : left.Alike lenient bindings otherBindings otherLeft)
    {op : Comparison}
    (rightAlike : right.Alike lenient bindings otherBindings otherRight)
    (sameOperator : operatorOf op otherRight = operatorOf op right) :
    (RelExpr.compare left op right).Alike lenient bindings otherBindings
      (.compare otherLeft op otherRight) := by
  refine ⟨rfl, ?_⟩
  simp only [core?, sameOperator, leftAlike.tests, rightAlike.tests]
  exact leftAlike.core.bind fun _ _ lefts => rightAlike.core.bind fun _ _ rights =>
    .some (withTests sameCells
      ((withTests sameCells lefts _).compare (operatorOf op right) rights) _)

omit sameCells in
/-- An equality with its operands exchanged, neither with a test behind it nor a null literal. -/
theorem exchange
    (leftAlike : left.Alike lenient bindings otherBindings otherLeft)
    {op : Comparison}
    (rightAlike : right.Alike lenient bindings otherBindings otherRight)
    (isEquality : Store.Scalar.IsEquality (operatorOf op right))
    (sameOperator : operatorOf op otherLeft = operatorOf op right)
    (noTests : left.tests = [] ∧ right.tests = []) :
    (RelExpr.compare left op right).Alike lenient bindings otherBindings
      (.compare otherRight op otherLeft) := by
  refine ⟨rfl, ?_⟩
  simp only [core?, sameOperator, leftAlike.tests, rightAlike.tests, noTests, Term.withTests,
    List.foldl_nil]
  have lefts := leftAlike.core
  have rights := rightAlike.core
  generalize left.core? = l?, otherLeft.core? = l'?, right.core? = r?, otherRight.core? = r'?
    at lefts rights
  cases lefts with
  | none => cases rights <;> exact .none
  | some leftTerms =>
      cases rights with
      | none => exact .none
      | some rightTerms => exact .some (.exchange isEquality leftTerms rightTerms)

/-- Whether a conjunction is false in any case is a matter of what is joined. -/
theorem and_never
    (leftAlike : left.Alike lenient bindings otherBindings otherLeft)
    (rightAlike : right.Alike lenient bindings otherBindings otherRight)
    {free : Prop}
    (leftNever : NeverAlike free left otherLeft)
    (rightNever : NeverAlike free right otherRight) :
    NeverAlike free (.and left right) (.and otherLeft otherRight) := by
  intro term isTerm otherTerm isOther never
  rw [grouped?_and] at isTerm isOther
  obtain ⟨l, isLeft, r, isRight, rfl⟩ : ∃ l ∈ left.grouped?, ∃ r ∈ right.grouped?,
      Term.and l r = term := by
    simpa [Option.bind_eq_some_iff] using isTerm
  obtain ⟨l', isOtherLeft, r', isOtherRight, rfl⟩ : ∃ l ∈ otherLeft.grouped?,
      ∃ r ∈ otherRight.grouped?, Term.and l r = otherTerm := by
    simpa [Option.bind_eq_some_iff] using isOther
  have lefts := leftAlike.grouped sameCells
  have rights := rightAlike.grouped sameCells
  rw [isLeft, isOtherLeft, Option.rel_some_some] at lefts
  rw [isRight, isOtherRight, Option.rel_some_some] at rights
  simp only [Term.isNever, lefts.calls, rights.calls, Bool.and_eq_true, Bool.or_eq_true]
    at never ⊢
  obtain ⟨⟨leftIsNever | rightIsNever, noLeft⟩, noRight⟩ := never
  · exact (leftNever l isLeft l' isOtherLeft leftIsNever).imp_left fun was =>
      ⟨⟨.inl was, noLeft⟩, noRight⟩
  · exact (rightNever r isRight r' isOtherRight rightIsNever).imp_left fun was =>
      ⟨⟨.inr was, noLeft⟩, noRight⟩

/-- Conjunctions come to the same if their sides do, also in whether they are left out. -/
theorem and
    (leftAlike : left.Alike lenient bindings otherBindings otherLeft)
    (rightAlike : right.Alike lenient bindings otherBindings otherRight)
    (leftNever : NeverAlike lenient left otherLeft)
    (rightNever : NeverAlike lenient right otherRight) :
    (RelExpr.and left right).Alike lenient bindings otherBindings
      (.and otherLeft otherRight) := by
  refine ⟨rfl, ?_⟩
  have never := leftAlike.and_never sameCells rightAlike leftNever rightNever
  have lefts := leftAlike.core
  have rights := rightAlike.core
  unfold NeverAlike at never
  simp only [grouped?, core?, leftAlike.tests, rightAlike.tests] at never ⊢
  generalize left.core? = l?, otherLeft.core? = l'?, right.core? = r?, otherRight.core? = r'?
    at lefts rights never
  cases lefts with
  | none => cases rights <;> exact .none
  | some leftTerms =>
      cases rights with
      | none => exact .none
      | some rightTerms =>
          exact .some (.and (withTests sameCells leftTerms _) (withTests sameCells rightTerms _)
            (never _ rfl _ rfl))

/-- A conjunction names the place zero if it is false in any case, and otherwise none. -/
theorem and_place
    (alike : (RelExpr.and left right).Alike lenient bindings otherBindings
      (.and otherLeft otherRight))
    (never : NeverAlike False (.and left right) (.and otherLeft otherRight)) :
    PlaceAlike (.and left right) (.and otherLeft otherRight) := by
  intro term isTerm otherTerm isOther
  have back := never term isTerm otherTerm isOther
  have terms := alike.grouped sameCells
  rw [isTerm, isOther, Option.rel_some_some] at terms
  rw [grouped?_and] at isTerm isOther
  obtain ⟨l, _, r, _, rfl⟩ : ∃ l ∈ left.grouped?, ∃ r ∈ right.grouped?, Term.and l r = term := by
    simpa [Option.bind_eq_some_iff] using isTerm
  obtain ⟨l', _, r', _, rfl⟩ : ∃ l ∈ otherLeft.grouped?, ∃ r ∈ otherRight.grouped?,
      Term.and l r = otherTerm := by
    simpa [Option.bind_eq_some_iff] using isOther
  have same : (Term.and l' r').isNever = (Term.and l r).isNever :=
    Bool.eq_iff_iff.mpr ⟨fun isNever => (back isNever).resolve_right id, terms.never⟩
  rw [Store.resultPlace?, Store.resultPlace?, same]

/-- Disjunctions come to the same if their sides do. -/
theorem or
    (leftAlike : left.Alike lenient bindings otherBindings otherLeft)
    (rightAlike : right.Alike lenient bindings otherBindings otherRight) :
    (RelExpr.or left right).Alike lenient bindings otherBindings (.or otherLeft otherRight) := by
  refine ⟨rfl, ?_⟩
  simp only [core?, leftAlike.tests, rightAlike.tests]
  exact leftAlike.core.bind fun _ _ lefts => rightAlike.core.bind fun _ _ rights =>
    .some (.or (withTests sameCells lefts _) (withTests sameCells rights _))

/-- Negations come to the same if what they negate does. -/
theorem not
    (alike : operand.Alike lenient bindings otherBindings otherOperand) :
    (RelExpr.not operand).Alike lenient bindings otherBindings (.not otherOperand) := by
  refine ⟨rfl, ?_⟩
  simp only [core?, alike.tests]
  exact alike.core.bind fun _ _ terms => .some (withTests sameCells terms _).not

/-- Calls of a function come to the same if their arguments do. -/
theorem function
    (name : String)
    {args others : List RelExpr}
    (alike : List.Forall₂ (Alike lenient bindings otherBindings) args others) :
    (RelExpr.function name args).Alike lenient bindings otherBindings
      (.function name others) := by
  refine ⟨rfl, ?_⟩
  have each : Option.Rel (List.Forall₂ (AlikeTerms lenient bindings otherBindings))
      (groupedAll? args) (groupedAll? others) := by
    induction alike with
    | nil => exact .some .nil
    | cons first _ inductionHypothesis =>
        simp only [groupedAll?, first.tests]
        exact first.core.bind fun _ _ here => inductionHypothesis.bind fun _ _ rest =>
          .some (.cons (withTests sameCells here _) rest)
  rw [core?, core?]
  exact each.bind fun _ _ terms => .some (.call _ terms)

end Operators

/-- Membership tests in a value set come to the same if their operands do. -/
theorem membership
    (alike : operand.Alike lenient bindings otherBindings otherOperand)
    (valueSet : String)
    (search : SearchId) :
    (RelExpr.membership operand valueSet search).Alike lenient bindings otherBindings
      (.membership otherOperand valueSet search) :=
  ⟨congrArg (· ++ [valueSet]) alike.tests, alike.core⟩

include sameCells in
/-- An expression comes to the same with the same values bound. -/
theorem refl
    (sameCell : ∀ name, otherBindings.cell name = bindings.cell name)
    (e : RelExpr) :
    e.Alike lenient bindings otherBindings e := by
  induction e with
  | member item property => exact ⟨rfl, .none⟩
  | column tableAlias name => exact .column tableAlias name
  | literal value => exact .literal value
  | parameter name => exact .parameter (sameCell name)
  | compare left op right leftAlike rightAlike =>
      exact .compare sameCells leftAlike rightAlike rfl
  | and left right leftAlike rightAlike =>
      exact .and sameCells leftAlike rightAlike (neverAlike_refl left) (neverAlike_refl right)
  | or left right leftAlike rightAlike => exact .or sameCells leftAlike rightAlike
  | not operand alike => exact .not sameCells alike
  | function name args alike => exact .function sameCells name (List.forall₂_same.mpr alike)
  | membership operand valueSet search alike => exact .membership alike valueSet search

end Alike

end RelExpr

end FullTextQuery
