import FullTextQuery.Proofs.Outcome
import FullTextQuery.Store.Scalar

namespace FullTextQuery.Store

/-!
# What expressions come to

Every expression has a cell on every joined row, where a part that fails counts
as null.  An evaluation that succeeds finds this cell, whatever it leaves out:
it leaves out only what the cell does not depend on.
-/

namespace Scalar

/-- What holds without a right side that was not looked at holds with any right side. -/
theorem bothTrue_getD
    (left? right? : Option Bool)
    (ifNull : Bool) :
    (bothTrue left? right?).getD ifNull = (left?.getD ifNull && right?.getD ifNull) := by
  rcases left? with _ | _ | _ <;> rcases right? with _ | _ | _ <;> cases ifNull <;> rfl

/-- With null counted as given, one or the other is true if one of them is. -/
theorem anyTrue_getD
    (left? right? : Option Bool)
    (ifNull : Bool) :
    (anyTrue left? right?).getD ifNull = (left?.getD ifNull || right?.getD ifNull) := by
  rcases left? with _ | _ | _ <;> rcases right? with _ | _ | _ <;> cases ifNull <;> rfl

/-- With null counted as given, a negation counts it the other way around. -/
theorem not_getD
    (truth? : Option Bool)
    (ifNull : Bool) :
    (truth?.map Bool.not).getD ifNull = !truth?.getD !ifNull := by
  rcases truth? with _ | _ | _ <;> cases ifNull <;> rfl

end Scalar

variable [NumeralReading]

namespace Cell

/-- The cell of a truth value has this truth value. -/
@[simp] theorem truth?_ofTruth
    (truth? : Option Bool) :
    (ofTruth truth?).truth? = truth? := by
  rcases truth? with _ | _ | _ <;> rfl

/-- The outcome of a comparison of two cells, each with the affinity of its column if it has one. -/
def compared
    (op : Sql.Operator)
    (leftAffinity? rightAffinity? : Option Affinity)
    (left right : Cell) :
    Cell :=
  if op = .like then
    ofTruth (Scalar.likeCells left right).toOption.join
  else
    let conversion := Conversion.ofOperands leftAffinity? rightAffinity?
    ofTruth (Scalar.compareCells (conversion.convert left) op (conversion.convert right))

/-- What a function makes of a cell; null if it fails. -/
def applied
    (function : ScalarFunction)
    (cell : Cell) :
    Cell :=
  (function.apply cell).toOption.getD .null

/-- The outcome of a membership test of a cell with the affinity of its column if it has one. -/
def tested
    (affinity? : Option Affinity)
    (cell : Cell)
    (elements : List Cell) :
    Cell :=
  let conversion := Conversion.ofOperands affinity? (some .none)
  ofTruth (Scalar.memberOf (conversion.convert cell) (elements.map conversion.convert))

end Cell

namespace Scalar

variable {row : JoinedRow}

/-- The cell of an expression on a joined row. -/
def cell
    (row : JoinedRow) :
    Scalar → Cell
  | .column ref => ref.cell row
  | .constant cell => cell
  | .compare left op right =>
      Cell.compared op left.affinity? right.affinity? (left.cell row) (right.cell row)
  | .and left right => Cell.ofTruth (bothTrue (left.cell row).truth? (right.cell row).truth?)
  | .or left right => Cell.ofTruth (anyTrue (left.cell row).truth? (right.cell row).truth?)
  | .not operand => Cell.ofTruth ((operand.cell row).truth?.map Bool.not)
  | .apply function arg => Cell.applied function (arg.cell row)
  | .inSet operand cells => Cell.tested operand.affinity? (operand.cell row) cells

/-- Whether an expression is true on a joined row. -/
def isTrue
    (row : JoinedRow)
    (scalar : Scalar) :
    Bool :=
  (scalar.cell row).truth? == some true

/-- An evaluation that succeeds finds the cell. -/
theorem eq_cell_of_value
    {scalar : Scalar}
    {found : Cell}
    (evaluates : scalar.value row = .ok found) :
    found = scalar.cell row := by
  induction scalar generalizing found with
  | column ref =>
      exact (Except.ok.inj evaluates).symm
  | constant cell =>
      exact (Except.ok.inj evaluates).symm
  | compare left op right leftEvaluates rightEvaluates =>
      simp only [value, Except.bind_eq_ok] at evaluates
      obtain ⟨a, leftValue, b, rightValue, evaluates⟩ := evaluates
      obtain rfl := leftEvaluates leftValue
      obtain rfl := rightEvaluates rightValue
      rw [cell, Cell.compared]
      split at evaluates
      · rename_i isLike
        obtain ⟨truth?, liked, ⟨⟩⟩ := Except.bind_eq_ok.mp evaluates
        rw [if_pos isLike, liked]
        rfl
      · rename_i notLike
        rw [if_neg notLike]
        exact (Except.ok.inj evaluates).symm
  | and left right leftEvaluates rightEvaluates =>
      simp only [value, Except.bind_eq_ok] at evaluates
      obtain ⟨a, leftValue, b, rightValue, ⟨⟩⟩ := evaluates
      rw [cell, leftEvaluates leftValue, rightEvaluates rightValue]
  | or left right leftEvaluates rightEvaluates =>
      simp only [value, Except.bind_eq_ok] at evaluates
      obtain ⟨a, leftValue, b, rightValue, ⟨⟩⟩ := evaluates
      rw [cell, leftEvaluates leftValue, rightEvaluates rightValue]
  | not operand operandEvaluates =>
      simp only [value, Except.bind_eq_ok] at evaluates
      obtain ⟨a, operandValue, ⟨⟩⟩ := evaluates
      rw [cell, operandEvaluates operandValue]
  | apply function arg argEvaluates =>
      simp only [value, Except.bind_eq_ok] at evaluates
      obtain ⟨a, argValue, applies⟩ := evaluates
      rw [cell, Cell.applied, ← argEvaluates argValue, applies]
      rfl
  | inSet operand cells operandEvaluates =>
      simp only [value, Except.bind_eq_ok] at evaluates
      obtain ⟨a, operandValue, ⟨⟩⟩ := evaluates
      rw [cell, operandEvaluates operandValue]
      rfl

/-- An evaluation of a condition that succeeds finds its truth value, with null as it is given. -/
theorem eq_truth_of_holds
    {scalar : Scalar}
    {ifNull found : Bool}
    (evaluates : scalar.holds row ifNull = .ok found) :
    found = (scalar.cell row).truth?.getD ifNull := by
  have ofValue : ∀ {scalar : Scalar} {ifNull found : Bool},
      (do return (← scalar.value row).truth?.getD ifNull) = .ok found →
      found = (scalar.cell row).truth?.getD ifNull := by
    intro scalar ifNull found evaluates
    obtain ⟨a, isValue, ⟨⟩⟩ := Except.bind_eq_ok.mp evaluates
    rw [eq_cell_of_value isValue]
  induction scalar generalizing ifNull found with
  | column ref =>
      exact (Except.ok.inj evaluates).symm
  | constant cell =>
      exact (Except.ok.inj evaluates).symm
  | compare left op right =>
      exact ofValue evaluates
  | apply function arg =>
      exact ofValue evaluates
  | inSet operand cells =>
      exact ofValue evaluates
  | and left right leftHolds rightHolds =>
      simp only [holds, Except.bind_eq_ok] at evaluates
      obtain ⟨first, leftFound, rest⟩ := evaluates
      rw [cell, Cell.truth?_ofTruth, bothTrue_getD, ← leftHolds leftFound]
      cases first with
      | true => simpa using rightHolds (by simpa using rest)
      | false => simpa [eq_comm] using rest
  | or left right leftHolds rightHolds =>
      simp only [holds, Except.bind_eq_ok] at evaluates
      obtain ⟨first, leftFound, rest⟩ := evaluates
      rw [cell, Cell.truth?_ofTruth, anyTrue_getD, ← leftHolds leftFound]
      cases first with
      | true => simpa [eq_comm] using rest
      | false => simpa using rightHolds (by simpa using rest)
  | not operand operandHolds =>
      simp only [holds, Except.bind_eq_ok] at evaluates
      obtain ⟨first, operandFound, ⟨⟩⟩ := evaluates
      rw [cell, Cell.truth?_ofTruth, not_getD, ← operandHolds operandFound]

/-- A condition that was found to hold is true, and only then. -/
theorem eq_isTrue_of_holds
    {scalar : Scalar}
    {found : Bool}
    (evaluates : scalar.holds row false = .ok found) :
    found = scalar.isTrue row := by
  rw [eq_truth_of_holds evaluates, isTrue]
  rcases (scalar.cell row).truth? with _ | _ | _ <;> rfl

/-- The conditions that a conjunction is made of are all true exactly if it is. -/
theorem all_conjuncts
    (scalar : Scalar) :
    scalar.conjuncts.all (isTrue row) = scalar.isTrue row := by
  induction scalar with
  | and left right leftSame rightSame =>
      rw [conjuncts, List.all_append, leftSame, rightSame]
      simp only [isTrue, cell, Cell.truth?_ofTruth]
      rcases (left.cell row).truth? with _ | _ | _ <;>
        rcases (right.cell row).truth? with _ | _ | _ <;> rfl
  | _ => simp [conjuncts]

/-- An expression that reads no table has the same cell on every row. -/
theorem cell_eq_of_isConstant
    {scalar : Scalar}
    (constant : scalar.isConstant = true)
    (row other : JoinedRow) :
    scalar.cell row = scalar.cell other := by
  induction scalar with
  | column ref => simp [isConstant] at constant
  | constant cell => rfl
  | compare left op right leftSame rightSame =>
      simp only [isConstant, Bool.and_eq_true] at constant
      rw [cell, cell, leftSame constant.1, rightSame constant.2]
  | and left right leftSame rightSame =>
      simp only [isConstant, Bool.and_eq_true] at constant
      rw [cell, cell, leftSame constant.1, rightSame constant.2]
  | or left right leftSame rightSame =>
      simp only [isConstant, Bool.and_eq_true] at constant
      rw [cell, cell, leftSame constant.1, rightSame constant.2]
  | not operand operandSame => rw [cell, cell, operandSame constant]
  | apply function arg argSame => rw [cell, cell, argSame constant]
  | inSet operand cells operandSame => rw [cell, cell, operandSame constant]

end Scalar

end FullTextQuery.Store
