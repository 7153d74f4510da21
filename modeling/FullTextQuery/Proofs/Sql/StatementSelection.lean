import FullTextQuery.Proofs.Sql.StatementReading
import FullTextQuery.Proofs.Outcome
import FullTextQuery.Store.Selection

namespace FullTextQuery

/-!
# What a written statement selects

The parameters among the tokens of a statement are those that it uses.  If nothing else is
bound, its text therefore selects what the selection does that it is read as.
-/

namespace Sql

section ParameterNames

variable (tokens : List Token)

@[simp] theorem parameterNames_nil :
    parameterNames [] = [] :=
  rfl

@[simp] theorem parameterNames_sign
    (sign : Sign) :
    parameterNames (.sign sign :: tokens) = parameterNames tokens :=
  rfl

@[simp] theorem parameterNames_word
    (word : String) :
    parameterNames (.word word :: tokens) = parameterNames tokens :=
  rfl

@[simp] theorem parameterNames_name
    (name : String) :
    parameterNames (.name name :: tokens) = parameterNames tokens :=
  rfl

@[simp] theorem parameterNames_number
    (numeral : Decimal.Numeral)
    (pointed : Bool) :
    parameterNames (.number numeral pointed :: tokens) = parameterNames tokens :=
  rfl

@[simp] theorem parameterNames_parameter
    (name : String) :
    parameterNames (.parameter name :: tokens) = name :: parameterNames tokens :=
  rfl

@[simp] theorem parameterNames_append
    (others : List Token) :
    parameterNames (tokens ++ others) = parameterNames tokens ++ parameterNames others := by
  rw [parameterNames, parameterNames, parameterNames, List.filterMap_append]

/-- What is collected from items is collected from the tokens of them, with commas between. -/
theorem parameterNames_separatedTokens
    {itemTokens : α → List Token}
    {names : α → List String}
    (each : ∀ item, parameterNames (itemTokens item) = names item)
    (items : List α) :
    parameterNames (separatedTokens itemTokens items) = items.flatMap names := by
  have behind : ∀ items : List α,
      parameterNames (items.flatMap fun item => .sign .comma :: itemTokens item) =
        items.flatMap names := by
    intro items
    induction items with
    | nil => rfl
    | cons item items inductionHypothesis => simp [each, inductionHypothesis]
  cases items with
  | nil => rfl
  | cons item items => simp [separatedTokens, each, behind]

/-- A literal has no parameters. -/
@[simp] theorem parameterNames_literalTokens
    (value : Value) :
    parameterNames (literalTokens value) = [] := by
  have signed : ∀ (negative : Bool) (token : Token), parameterNames [token] = [] →
      parameterNames (signedTokens negative [token]) = [] := by
    intro negative token noName
    cases negative
    · exact noName
    · exact noName
  cases value with
  | null => rfl
  | integer n => exact signed _ _ rfl
  | real x =>
      rw [literalTokens]
      split
      · rfl
      · split
        · exact signed _ _ rfl
        · exact signed _ _ rfl
  | text s => rfl

@[simp] theorem parameterNames_operatorTokens
    (op : Comparison)
    (right : RelExpr) :
    parameterNames (operatorTokens op right) = [] := by
  unfold operatorTokens
  split
  · rfl
  · rfl
  · cases op <;> rfl

end ParameterNames

end Sql

open Sql

/-- The parameters among the tokens of an expression are those that it uses, in order. -/
@[simp] theorem RelExpr.parameterNames_tokens
    (e : RelExpr) :
    parameterNames e.tokens = e.uses.map (·.name) := by
  induction e with
  | member item property => rfl
  | column tableAlias name => rfl
  | literal value => simp [tokens, uses]
  | parameter name => rfl
  | compare left op right leftNames rightNames => simp [tokens, uses, leftNames, rightNames]
  | and left right leftNames rightNames => simp [tokens, uses, leftNames, rightNames]
  | or left right leftNames rightNames => simp [tokens, uses, leftNames, rightNames]
  | not operand operandNames => simp [tokens, uses, operandNames]
  | function name args argNames =>
      have further : ∀ es : List RelExpr,
          (∀ e ∈ es, parameterNames e.tokens = e.uses.map (·.name)) →
          parameterNames (furtherTokens es) = (usesOfAll es).map (·.name) := by
        intro es
        induction es with
        | nil => exact fun _ => rfl
        | cons e es inductionHypothesis =>
            intro each
            obtain ⟨first, rest⟩ := List.forall_mem_cons.mp each
            simp [furtherTokens, usesOfAll, first, inductionHypothesis rest]
      cases args with
      | nil => rfl
      | cons arg args =>
          obtain ⟨first, rest⟩ := List.forall_mem_cons.mp argNames
          simp [tokens, argumentTokens, uses, usesOfAll, first, further args rest]
  | membership operand valueSet search operandNames =>
      simp [tokens, arrayTokens, uses, operandNames]

namespace Statement

/-- The parameters among the tokens of a statement are those that it uses, in order. -/
theorem parameterNames_tokens
    (s : Statement) :
    parameterNames s.tokens = s.uses.map (·.name) := by
  have columns : parameterNames (separatedTokens columnTokens s.projection) =
      s.projection.flatMap fun item => item.expr.uses.map (·.name) :=
    parameterNames_separatedTokens (fun item => by simp [columnTokens]) s.projection
  have joins : ∀ joins : List JoinedTable, parameterNames (joins.flatMap joinTokens) =
      joins.flatMap fun join => join.on.uses.map (·.name) := by
    intro joins
    induction joins with
    | nil => rfl
    | cons join joins inductionHypothesis => simp [joinTokens, tableTokens, inductionHypothesis]
  have filter : parameterNames (filterTokens s.predicate?) =
      s.predicate?.toList.flatMap fun e => e.uses.map (·.name) := by
    cases s.predicate? <;> simp [filterTokens]
  have ordering : parameterNames (orderingTokens s.ordering) =
      s.ordering.flatMap fun term => term.expr.uses.map (·.name) := by
    have terms : parameterNames (separatedTokens orderTokens s.ordering) =
        s.ordering.flatMap fun term => term.expr.uses.map (·.name) := by
      refine parameterNames_separatedTokens (fun term => ?_) s.ordering
      cases isDescending : term.descending <;> simp [orderTokens, isDescending]
    cases isOrdering : s.ordering with
    | nil => rfl
    | cons term rest => simpa [orderingTokens, isOrdering] using terms
  have limit : parameterNames (limitTokens s.limit?) = [] := by
    cases s.limit? <;> simp [limitTokens]
  simp [tokens, tableTokens, columns, joins, filter, ordering, limit, uses, expressions,
    List.flatMap_map, List.map_flatMap]

/-- With nothing else bound, the text of a statement selects what it is read as. -/
theorem select_text
    [NumeralReading]
    {s : Statement}
    (plain : s.Plain)
    (store : Store)
    {bindings : Store.Bindings}
    (noOther : ∀ name ∈ bindings.names, name ∈ s.uses.map (·.name)) :
    store.select s.text bindings =
      match (if s.NulFree then s.grouped? else none) with
      | some selection => Store.Search.ofSelection store bindings selection >>= Store.Search.rows
      | none => .error .invalidStatement := by
  have allNamed :
      bindings.names.find? (fun name => !(s.uses.map (·.name)).contains name) = none := by
    rw [List.find?_eq_none]
    intro name isBound
    simpa using noOther name isBound
  rw [Store.select, Store.search, prepare?_text plain, parameterNames_tokens]
  by_cases nulFree : s.NulFree
  · simp only [nulFree, ↓reduceIte]
    cases s.grouped? with
    | none => rfl
    | some selection =>
        simp only [Option.map_some, allNamed]
        cases Store.Search.ofSelection store bindings selection <;> rfl
  · simp only [nulFree, ↓reduceIte]
    rfl

end Statement

end FullTextQuery
