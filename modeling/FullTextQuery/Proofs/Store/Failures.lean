import FullTextQuery.Proofs.Outcome
import FullTextQuery.Store.Selection

namespace FullTextQuery

/-!
# How selections fail

Once its names are found, a selection fails only at a limit of the store, whatever
the rows: at a pattern that is too long, or at the smallest integer, which has no distance
from zero.  This is shown of one expression on one row, and then along the rows.
-/

namespace StoreError

/-- Whether a failure says that a limit of the store is exceeded. -/
inductive IsLimit : StoreError → Prop where
  | tooDeep : IsLimit .tooDeep
  | tooManyTables : IsLimit .tooManyTables
  | patternTooLong : IsLimit .patternTooLong
  | integerOverflow : IsLimit .integerOverflow

end StoreError

variable [NumeralReading]

namespace Store

open StoreError (IsLimit)

section Scalars

/-- A function of one cell fails only at the smallest integer. -/
theorem ScalarFunction.failsOnlyBy_apply
    (function : ScalarFunction)
    (cell : Cell) :
    (function.apply cell).FailsOnlyBy IsLimit := by
  cases function with
  | lower => exact .ok
  | upper => exact .ok
  | length => exact .ok
  | trim => exact .ok
  | abs =>
      cases cell with
      | integer n =>
          rw [apply, absOf]
          split
          · rintro _ ⟨⟩
            exact .integerOverflow
          · exact .ok
      | null => exact .ok
      | real x => exact .ok
      | text s => exact .ok
      | blob bytes => exact .ok

namespace Scalar

variable {row : JoinedRow}

omit [NumeralReading] in
/-- A text is compared with a pattern unless the pattern is too long. -/
theorem failsOnlyBy_likeCells
    (text pattern : Cell) :
    (likeCells text pattern).FailsOnlyBy IsLimit := by
  unfold likeCells
  split
  · split
    · rintro _ ⟨⟩
      exact .patternTooLong
    · exact .ok
  · exact .ok

/-- An expression fails on a row only at a limit. -/
theorem failsOnlyBy_value
    (scalar : Scalar) :
    (scalar.value row).FailsOnlyBy IsLimit := by
  induction scalar with
  | column ref => exact .ok
  | constant cell => exact .ok
  | compare left op right leftFails rightFails =>
      refine leftFails.bind fun a _ => rightFails.bind fun b _ => ?_
      dsimp only
      split
      · exact (failsOnlyBy_likeCells a b).bind fun _ _ => .ok
      · exact .ok
  | and left right leftFails rightFails =>
      exact leftFails.bind fun _ _ => rightFails.bind fun _ _ => .ok
  | or left right leftFails rightFails =>
      exact leftFails.bind fun _ _ => rightFails.bind fun _ _ => .ok
  | not operand operandFails => exact operandFails.bind fun _ _ => .ok
  | apply function arg argFails =>
      exact argFails.bind fun a _ => function.failsOnlyBy_apply a
  | inSet operand cells operandFails => exact operandFails.bind fun _ _ => .ok

/-- A condition fails on a row only at a limit. -/
theorem failsOnlyBy_holds
    (scalar : Scalar)
    (ifNull : Bool) :
    (scalar.holds row ifNull).FailsOnlyBy IsLimit := by
  induction scalar generalizing ifNull with
  | and left right leftFails rightFails =>
      refine (leftFails ifNull).bind fun isTrue _ => ?_
      cases isTrue with
      | true => exact rightFails ifNull
      | false => exact .ok
  | or left right leftFails rightFails =>
      refine (leftFails ifNull).bind fun isTrue _ => ?_
      cases isTrue with
      | true => exact .ok
      | false => exact rightFails ifNull
  | not operand operandFails => exact (operandFails !ifNull).bind fun _ _ => .ok
  | column ref => exact .ok
  | constant cell => exact .ok
  | compare left op right => exact (failsOnlyBy_value _).bind fun _ _ => .ok
  | apply function arg => exact (failsOnlyBy_value _).bind fun _ _ => .ok
  | inSet operand cells => exact (failsOnlyBy_value _).bind fun _ _ => .ok

end Scalar

end Scalars

namespace Search

variable {row : JoinedRow}

/-- Conditions fail at a limit of the store only. -/
theorem failsOnlyBy_allHold
    (conditions : List Scalar) :
    (allHold row conditions).FailsOnlyBy IsLimit := by
  induction conditions with
  | nil => exact .ok
  | cons condition conditions inductionHypothesis =>
      refine (condition.failsOnlyBy_holds false).bind fun isTrue _ => ?_
      cases isTrue with
      | true => exact inductionHypothesis
      | false => exact .ok

/-- Results fail at a limit of the store only. -/
theorem failsOnlyBy_values
    (scalars : List Scalar) :
    (values row scalars).FailsOnlyBy IsLimit :=
  .mapM fun scalar _ => scalar.failsOnlyBy_value

variable (search : Search)

/-- The first rows fail at a limit of the store only. -/
theorem failsOnlyBy_firstRows
    (limit? : Option Nat)
    (rows : List JoinedRow) :
    (firstRows search limit? rows).FailsOnlyBy IsLimit := by
  induction rows generalizing limit? with
  | nil =>
      match limit? with
      | none => exact .ok
      | some 0 => exact .ok
      | some (_ + 1) => exact .ok
  | cons row rows inductionHypothesis =>
      have step : (do
          if ← allHold row search.conditions then
            let cells ← values row search.results
            let others ← firstRows search (limit?.map (· - 1)) rows
            return cells :: others
          else
            firstRows search limit? rows : Except StoreError (List (List Cell))).FailsOnlyBy
              IsLimit := by
        refine (failsOnlyBy_allHold search.conditions).bind fun isSelected _ => ?_
        cases isSelected with
        | true =>
            exact (failsOnlyBy_values search.results).bind fun _ _ =>
              (inductionHypothesis _).bind fun _ _ => .ok
        | false => exact inductionHypothesis limit?
      match limit? with
      | none => exact step
      | some 0 => exact .ok
      | some (_ + 1) => exact step

/-- Ranked rows fail at a limit of the store only. -/
theorem failsOnlyBy_rankedRows
    (kept : List Ranked)
    (rows : List JoinedRow) :
    (rankedRows search kept rows).FailsOnlyBy IsLimit := by
  induction rows generalizing kept with
  | nil => exact .ok
  | cons row rows inductionHypothesis =>
      refine (failsOnlyBy_allHold search.conditions).bind fun isSelected _ => ?_
      cases isSelected with
      | true =>
          refine (failsOnlyBy_values _).bind fun key _ => ?_
          split
          · exact inductionHypothesis kept
          · exact (failsOnlyBy_values search.results).bind fun _ _ => inductionHypothesis _
      | false => exact inductionHypothesis kept

/-- With a limit that is an integer of the store, a selection fails only at a limit of it. -/
theorem failsOnlyBy_rows
    (small : ∀ limit ∈ search.limit?, limit < 0x8000000000000000) :
    search.rows.FailsOnlyBy IsLimit := by
  have noOverflow :
      search.limit?.any (fun limit => decide (0x8000000000000000 ≤ limit)) = false := by
    cases isLimit : search.limit? with
    | none => rfl
    | some limit => simpa using small limit isLimit
  rw [rows, noOverflow]
  simp only [Bool.false_eq_true, ↓reduceIte]
  split
  · exact .ok
  · refine (failsOnlyBy_allHold _).bind fun constantsHold _ => ?_
    cases constantsHold with
    | false => exact .ok
    | true =>
        cases search.ordering with
        | nil => exact failsOnlyBy_firstRows search search.limit? _
        | cons sort others => exact (failsOnlyBy_rankedRows search [] _).bind fun _ _ => .ok

/-- A selection succeeds only with a limit that is an integer of the store. -/
theorem small_of_rows
    {search : Search}
    {results : List (List Cell)}
    (success : search.rows = .ok results) :
    ∀ limit ∈ search.limit?, limit < 0x8000000000000000 := by
  intro limit isLimit
  rw [rows] at success
  split at success
  · cases success
  · rename_i noOverflow
    rw [Option.mem_def.mp isLimit] at noOverflow
    simpa using noOverflow

end Search

end Store

end FullTextQuery
