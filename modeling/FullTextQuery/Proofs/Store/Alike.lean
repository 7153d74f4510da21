import FullTextQuery.Proofs.RelatedOutcomes
import FullTextQuery.Proofs.Store.Rows

namespace FullTextQuery

/-!
# Expressions that come to the same

Two expressions with the same cell on every row, whose evaluations fail alike.
Taken leniently they may also fail apart.  Every way to put expressions together keeps
them so, and equality does not care which of its operands stands first.
-/

/-- Numbers compared the other way around. -/
theorem Binary64.compare_swap
    (x y : Binary64) :
    y.compare x = (x.compare y).swap := by
  unfold compare
  cases x.isZero <;> cases y.isZero <;> cases x.negative <;> cases y.negative <;> first
    | rfl
    | exact Std.OrientedOrd.eq_swap

namespace Store

/-- Texts compared the other way around. -/
theorem compareChars_swap
    (s t : List Char) :
    compareChars t s = (compareChars s t).swap := by
  induction s generalizing t with
  | nil => cases t <;> rfl
  | cons a s inductionHypothesis =>
      cases t with
      | nil => rfl
      | cons b t =>
          rw [compareChars, compareChars, inductionHypothesis, ← Nat.compare_swap a.toNat b.toNat]
          cases Ord.compare a.toNat b.toNat <;> rfl

/-- Bytes compared the other way around. -/
theorem compareBytes_swap
    (s t : List UInt8) :
    compareBytes t s = (compareBytes s t).swap := by
  induction s generalizing t with
  | nil => cases t <;> rfl
  | cons a s inductionHypothesis =>
      cases t with
      | nil => rfl
      | cons b t =>
          have here : Ord.compare b a = (Ord.compare a b).swap := Std.OrientedOrd.eq_swap
          rw [compareBytes, compareBytes, inductionHypothesis, here]
          cases Ord.compare a b <;> rfl

namespace Cell

/-- Cells compared the other way around. -/
theorem compare_swap
    (a b : Cell) :
    b.compare a = (a.compare b).swap := by
  cases a <;> cases b <;> simp only [compare, Ordering.swap_swap] <;> first
    | exact Std.OrientedOrd.eq_swap
    | exact Binary64.compare_swap _ _
    | exact compareChars_swap _ _
    | exact compareBytes_swap _ _

/-- Equal cells are equal the other way around. -/
theorem compare_beq_eq_comm
    (a b : Cell) :
    (b.compare a == .eq) = (a.compare b == .eq) := by
  rw [compare_swap a b]
  cases a.compare b <;> rfl

end Cell

/-- The conversion for two operands does not depend on their order. -/
theorem Conversion.ofOperands_comm
    (first second : Option Affinity) :
    ofOperands second first = ofOperands first second := by
  cases first with
  | none => cases second <;> rfl
  | some a =>
      cases second with
      | none => rfl
      | some b => simp [ofOperands, Bool.or_comm]

namespace Scalar

/-- Whether an operator asks for equality or its contrary, of cells that are not null. -/
def IsEquality
    (op : Sql.Operator) :
    Prop :=
  op = .equal ∨ op = .notEqual

/-- Equality does not care which cell stands first. -/
theorem compareCells_comm
    {op : Sql.Operator}
    (isEquality : IsEquality op)
    (left right : Cell) :
    compareCells right op left = compareCells left op right := by
  rcases isEquality with rfl | rfl <;>
    simp [compareCells, holdsFor, or_comm, Cell.compare_beq_eq_comm left right, bne]

variable [NumeralReading]

/-- Whether evaluations of two expressions give the same, or both fail. -/
structure SameEvaluation
    (a b : Scalar) :
    Prop where
  constant : b.isConstant = a.isConstant
  value : ∀ row, (b.value row).toOption = (a.value row).toOption
  holds : ∀ row ifNull, (b.holds row ifNull).toOption = (a.holds row ifNull).toOption

namespace SameEvaluation

variable {a b c d : Scalar}

/-- A scalar is evaluated as itself. -/
theorem refl
    (a : Scalar) :
    a.SameEvaluation a :=
  ⟨rfl, fun _ => rfl, fun _ _ => rfl⟩

/-- What is evaluated as a third is evaluated as the first. -/
theorem trans
    (first : a.SameEvaluation b)
    (second : b.SameEvaluation c) :
    a.SameEvaluation c where
  constant := second.constant.trans first.constant
  value := fun row => (second.value row).trans (first.value row)
  holds := fun row ifNull => (second.holds row ifNull).trans (first.holds row ifNull)

/-- A condition that is no connective holds by its value. -/
theorem ofValue
    (constant : b.isConstant = a.isConstant)
    (value : ∀ row, (b.value row).toOption = (a.value row).toOption)
    (holdsFirst : ∀ row ifNull,
      a.holds row ifNull = (do return (← a.value row).truth?.getD ifNull))
    (holdsSecond : ∀ row ifNull,
      b.holds row ifNull = (do return (← b.value row).truth?.getD ifNull)) :
    a.SameEvaluation b where
  constant := constant
  value := value
  holds := by
    intro row ifNull
    rw [holdsFirst, holdsSecond, Except.toOption_bind, Except.toOption_bind, value]

/-- Comparisons are evaluated alike if their sides are, with the same affinities. -/
theorem compare
    (left : a.SameEvaluation b)
    (leftAffinity : b.affinity? = a.affinity?)
    (op : Sql.Operator)
    (right : c.SameEvaluation d)
    (rightAffinity : d.affinity? = c.affinity?) :
    (Scalar.compare a op c).SameEvaluation (.compare b op d) := by
  refine .ofValue ?_ ?_ (fun _ _ => rfl) (fun _ _ => rfl)
  · rw [isConstant, isConstant, left.constant, right.constant]
  · intro row
    simp only [Scalar.value, Except.toOption_bind, left.value, right.value, leftAffinity,
      rightAffinity]

/-- An equality with its operands exchanged is evaluated as before. -/
theorem exchange
    {op : Sql.Operator}
    (isEquality : IsEquality op)
    (left right : Scalar) :
    (Scalar.compare left op right).SameEvaluation (.compare right op left) := by
  have notLike : op ≠ .like := by
    rcases isEquality with rfl | rfl <;> decide
  refine .ofValue ?_ ?_ (fun _ _ => rfl) (fun _ _ => rfl)
  · rw [isConstant, isConstant, Bool.and_comm]
  · intro row
    simp only [Scalar.value, notLike, ↓reduceIte, Except.toOption_bind,
      Conversion.ofOperands_comm left.affinity? right.affinity?]
    cases (left.value row).toOption with
    | none => cases (right.value row).toOption <;> rfl
    | some l =>
        cases (right.value row).toOption with
        | none => rfl
        | some r =>
            simp only [Option.bind_some]
            rw [compareCells_comm isEquality]

/-- Conjunctions are evaluated alike if their sides are. -/
theorem and
    (left : a.SameEvaluation b)
    (right : c.SameEvaluation d) :
    (Scalar.and a c).SameEvaluation (.and b d) where
  constant := by rw [isConstant, isConstant, left.constant, right.constant]
  value := by
    intro row
    simp only [Scalar.value, Except.toOption_bind, left.value, right.value]
  holds := by
    intro row ifNull
    simp only [Scalar.holds, Except.toOption_bind, left.holds]
    refine Option.bind_congr fun holds _ => ?_
    cases holds with
    | true => exact right.holds row ifNull
    | false => rfl

/-- Disjunctions are evaluated alike if their sides are. -/
theorem or
    (left : a.SameEvaluation b)
    (right : c.SameEvaluation d) :
    (Scalar.or a c).SameEvaluation (.or b d) where
  constant := by rw [isConstant, isConstant, left.constant, right.constant]
  value := by
    intro row
    simp only [Scalar.value, Except.toOption_bind, left.value, right.value]
  holds := by
    intro row ifNull
    simp only [Scalar.holds, Except.toOption_bind, left.holds]
    refine Option.bind_congr fun holds _ => ?_
    cases holds with
    | true => rfl
    | false => exact right.holds row ifNull

/-- Negations are evaluated alike if what they negate is. -/
theorem not
    (operand : a.SameEvaluation b) :
    (Scalar.not a).SameEvaluation (.not b) where
  constant := operand.constant
  value := by
    intro row
    simp only [Scalar.value, Except.toOption_bind, operand.value]
  holds := by
    intro row ifNull
    simp only [Scalar.holds, Except.toOption_bind, operand.holds]

/-- A function is applied alike to arguments that are evaluated alike. -/
theorem apply
    (arg : a.SameEvaluation b)
    (function : ScalarFunction) :
    (Scalar.apply function a).SameEvaluation (.apply function b) := by
  refine .ofValue arg.constant ?_ (fun _ _ => rfl) (fun _ _ => rfl)
  intro row
  simp only [Scalar.value, Except.toOption_bind, arg.value]

/-- Membership tests are evaluated alike if their operands are, with the same affinity. -/
theorem inSet
    (operand : a.SameEvaluation b)
    (affinity : b.affinity? = a.affinity?)
    (cells : List Cell) :
    (Scalar.inSet a cells).SameEvaluation (.inSet b cells) := by
  refine .ofValue operand.constant ?_ (fun _ _ => rfl) (fun _ _ => rfl)
  intro row
  simp only [Scalar.value, Except.toOption_bind, operand.value, affinity]

end SameEvaluation

/--
Whether two expressions stand for the same: they have the same cells and, unless they are
taken leniently, are evaluated alike, as are the conditions that they are made of.
-/
structure Alike
    (lenient : Prop)
    (a b : Scalar) :
    Prop where
  affinity : b.affinity? = a.affinity?
  cell : ∀ row, b.cell row = a.cell row
  evaluation : ¬lenient → a.SameEvaluation b
  conjuncts : ¬lenient → List.Forall₂ SameEvaluation a.conjuncts b.conjuncts

namespace Alike

variable {lenient : Prop} {a b c d : Scalar}

/-- A scalar comes to the same as itself. -/
theorem refl
    (a : Scalar) :
    a.Alike lenient a where
  affinity := rfl
  cell := fun _ => rfl
  evaluation := fun _ => .refl a
  conjuncts := fun _ => List.forall₂_same.mpr fun condition _ => .refl condition

/-- Expressions that are no conjunctions are conditions themselves. -/
theorem ofEvaluation
    (affinity : b.affinity? = a.affinity?)
    (cell : ∀ row, b.cell row = a.cell row)
    (evaluation : ¬lenient → a.SameEvaluation b)
    (single : a.conjuncts = [a])
    (otherSingle : b.conjuncts = [b]) :
    a.Alike lenient b where
  affinity := affinity
  cell := cell
  evaluation := evaluation
  conjuncts := by
    intro strict
    rw [single, otherSingle]
    exact .cons (evaluation strict) .nil

/-- Comparisons come to the same if their sides do. -/
theorem compare
    (left : a.Alike lenient b)
    (op : Sql.Operator)
    (right : c.Alike lenient d) :
    (Scalar.compare a op c).Alike lenient (.compare b op d) :=
  .ofEvaluation rfl
    (fun row => by
      rw [Scalar.cell, Scalar.cell, left.affinity, left.cell, right.affinity, right.cell])
    (fun strict => (left.evaluation strict).compare left.affinity op (right.evaluation strict)
      right.affinity)
    rfl rfl

/-- An equality with its operands exchanged stands for the same. -/
theorem exchange
    {op : Sql.Operator}
    (isEquality : IsEquality op)
    (left : a.Alike lenient b)
    (right : c.Alike lenient d) :
    (Scalar.compare a op c).Alike lenient (.compare d op b) := by
  have notLike : op ≠ .like := by
    rcases isEquality with rfl | rfl <;> decide
  have inPlace := left.compare op right
  refine .ofEvaluation rfl (fun row => ?_)
    (fun strict => (inPlace.evaluation strict).trans (.exchange isEquality b d)) rfl rfl
  rw [← inPlace.cell]
  simp only [Scalar.cell, Cell.compared, notLike, ↓reduceIte,
    Conversion.ofOperands_comm b.affinity?, compareCells_comm isEquality]

/-- Conjunctions come to the same if their sides do, conjunct by conjunct. -/
theorem and
    (left : a.Alike lenient b)
    (right : c.Alike lenient d) :
    (Scalar.and a c).Alike lenient (.and b d) where
  affinity := rfl
  cell := fun row => by rw [Scalar.cell, Scalar.cell, left.cell, right.cell]
  evaluation := fun strict => (left.evaluation strict).and (right.evaluation strict)
  conjuncts := fun strict => List.rel_append (left.conjuncts strict) (right.conjuncts strict)

/-- Disjunctions come to the same if their sides do. -/
theorem or
    (left : a.Alike lenient b)
    (right : c.Alike lenient d) :
    (Scalar.or a c).Alike lenient (.or b d) :=
  .ofEvaluation rfl (fun row => by rw [Scalar.cell, Scalar.cell, left.cell, right.cell])
    (fun strict => (left.evaluation strict).or (right.evaluation strict)) rfl rfl

/-- Negations come to the same if what they negate does. -/
theorem not
    (operand : a.Alike lenient b) :
    (Scalar.not a).Alike lenient (.not b) :=
  .ofEvaluation rfl (fun row => by rw [Scalar.cell, Scalar.cell, operand.cell])
    (fun strict => (operand.evaluation strict).not) rfl rfl

/-- A function comes to the same on arguments that do. -/
theorem apply
    (arg : a.Alike lenient b)
    (function : ScalarFunction) :
    (Scalar.apply function a).Alike lenient (.apply function b) :=
  .ofEvaluation rfl (fun row => by rw [Scalar.cell, Scalar.cell, arg.cell])
    (fun strict => (arg.evaluation strict).apply function) rfl rfl

/-- Membership tests among the same cells come to the same if their operands do. -/
theorem inSet
    (operand : a.Alike lenient b)
    (cells : List Cell) :
    (Scalar.inSet a cells).Alike lenient (.inSet b cells) :=
  .ofEvaluation rfl (fun row => by rw [Scalar.cell, Scalar.cell, operand.cell, operand.affinity])
    (fun strict => (operand.evaluation strict).inSet operand.affinity cells) rfl rfl

/-- Of expressions that stand for the same, all are true on the same rows. -/
theorem all_isTrue
    {scalars others : List Scalar}
    (same : List.Forall₂ (Alike lenient) scalars others)
    (row : JoinedRow) :
    others.all (isTrue row) = scalars.all (isTrue row) := by
  induction same with
  | nil => rfl
  | cons first _ inductionHypothesis =>
      rw [List.all_cons, List.all_cons, isTrue, first.cell, inductionHypothesis, isTrue]

end Alike

end Scalar

end Store

end FullTextQuery
