import FullTextQuery.Proofs.Query.CanonicalExpressions
import FullTextQuery.Query.Display

namespace FullTextQuery

/-!
# Displayed expressions that are read back

Conjunctions and disjunctions are displayed in parentheses, comparisons and negations
without.  Where no comparison has either of the latter as an operand, every part of a
display text stands where the grammar looks for it, and the text is read back.
-/

namespace Expr

/-- Whether an expression is displayed so that it can be an operand of a comparison. -/
def isOperand : Expr → Bool
  | .compare .. | .not _ => false
  | .item _ | .member .. | .literal _ | .parameter _ | .and .. | .or .. | .call .. => true

/-- Whether the operands of a comparison are displayed as operands. -/
def HasOperands : Expr → Prop
  | .compare left _ right => left.isOperand = true ∧ right.isOperand = true
  | .item _ | .member .. | .literal _ | .parameter _ | .and .. | .or .. | .not _ | .call .. => True

/-- Whether no comparison in an expression has a comparison or a negation as an operand. -/
def Unambiguous
    (e : Expr) :
    Prop :=
  e.Everywhere HasOperands

/-- Whether there are neither comparisons nor combinations in an expression. -/
def IsPlain
    (e : Expr) :
    Prop :=
  e.Everywhere fun part => part.isAtomic = true

/-- Plain expressions and comparisons of plain expressions, combined in any way. -/
inductive IsCombination : Expr → Prop where
  | plain {e : Expr} : e.IsPlain → IsCombination e
  | compare {left right : Expr} {op : Comparison} :
      left.IsPlain → right.IsPlain → IsCombination (.compare left op right)
  | and {left right : Expr} :
      IsCombination left → IsCombination right → IsCombination (.and left right)
  | or {left right : Expr} :
      IsCombination left → IsCombination right → IsCombination (.or left right)
  | not {operand : Expr} : IsCombination operand → IsCombination (.not operand)

/-- A plain expression is displayed without ambiguity. -/
theorem IsPlain.unambiguous
    {e : Expr}
    (plain : e.IsPlain) :
    e.Unambiguous := by
  intro part isPart
  have atomic := plain part isPart
  cases part with
  | compare => cases atomic
  | _ => trivial

/-- A plain expression is an operand. -/
theorem IsPlain.isOperand
    {e : Expr}
    (plain : e.IsPlain) :
    e.isOperand = true := by
  cases e with
  | compare => exact (everywhere_compare.mp plain).1
  | not => exact (everywhere_not.mp plain).1
  | _ => rfl

/-- No comparison in a combination has parts that are compared or combined. -/
theorem IsCombination.unambiguous
    {e : Expr}
    (combination : e.IsCombination) :
    e.Unambiguous := by
  induction combination with
  | plain plain => exact plain.unambiguous
  | compare left right =>
      exact everywhere_compare.mpr
        ⟨⟨left.isOperand, right.isOperand⟩, left.unambiguous, right.unambiguous⟩
  | and _ _ left right => exact everywhere_and.mpr ⟨trivial, left, right⟩
  | or _ _ left right => exact everywhere_or.mpr ⟨trivial, left, right⟩
  | not _ operand => exact everywhere_not.mpr ⟨trivial, operand⟩

/-- The characters of a display text. -/
def shown
    (e : Expr) :
    List Char :=
  e.display.toList

section Shown

variable {left right operand : Expr}

@[simp] theorem shown_item
    (name : String) :
    (Expr.item name).shown = name.toList :=
  rfl

@[simp] theorem shown_member
    (item property : String) :
    (Expr.member item property).shown = item.toList ++ '.' :: property.toList := by
  change (item ++ "." ++ property).toList = _
  simp

@[simp] theorem shown_parameter
    (name : String) :
    (Expr.parameter name).shown = '@' :: name.toList := by
  change ("@" ++ name).toList = _
  simp

@[simp] theorem shown_null :
    (Expr.literal .null).shown = "null".toList :=
  rfl

@[simp] theorem shown_integer
    (n : Int64) :
    (Expr.literal (.integer n)).shown = (Decimal.ofInt n.toInt).toList :=
  rfl

@[simp] theorem shown_text
    (s : String) :
    (Expr.literal (.text s)).shown = '"' :: (doubled '"' s.toList ++ ['"']) :=
  String.toList_ofList

@[simp] theorem shown_compare
    (op : Comparison) :
    (Expr.compare left op right).shown =
      left.shown ++ ' ' :: (op.symbol.toList ++ ' ' :: right.shown) := by
  change (left.display ++ " " ++ op.symbol ++ " " ++ right.display).toList = _
  simp [shown]

@[simp] theorem shown_and :
    (Expr.and left right).shown =
      '(' :: ((left.shown ++ ' ' :: ("and".toList ++ ' ' :: right.shown)) ++ [')']) := by
  change ("(" ++ left.display ++ " and " ++ right.display ++ ")").toList = _
  simp [shown]

@[simp] theorem shown_or :
    (Expr.or left right).shown =
      '(' :: ((left.shown ++ ' ' :: ("or".toList ++ ' ' :: right.shown)) ++ [')']) := by
  change ("(" ++ left.display ++ " or " ++ right.display ++ ")").toList = _
  simp [shown]

@[simp] theorem shown_not :
    (Expr.not operand).shown = "not ".toList ++ operand.shown :=
  String.toList_append

/-- Arguments are displayed with commas between them. -/
theorem toList_displayArgs
    (args : List Expr) :
    (displayArgs args).toList = commaText (args.map shown) := by
  induction args with
  | nil => rfl
  | cons arg args inductionHypothesis =>
      cases args with
      | nil => simp [displayArgs, shown, commaText]
      | cons next args =>
          have split : commaText ((arg :: next :: args).map shown) =
              arg.shown ++ (", ".toList ++ commaText ((next :: args).map shown)) := by
            simp [commaText, List.intercalate_cons_cons]
          rw [split, ← inductionHypothesis, displayArgs]
          · simp [shown]
          · simp

@[simp] theorem shown_call
    (function : String)
    (args : List Expr) :
    (Expr.call function args).shown =
      function.toList ++ '(' :: (commaText (args.map shown) ++ [')']) := by
  rw [← toList_displayArgs]
  change (function ++ "(" ++ displayArgs args ++ ")").toList = _
  simp

end Shown

end Expr

namespace Query

open Matcher Grammar

variable {m : Matcher (Reading Expr)} {cs rest text : List Char} {e left right : Expr}

section Negations

/-- Less than before is left behind `not` and layout. -/
theorem length_behindNot
    {behind : List Char}
    (isNot : scanWord? "not".toList cs = some ((), behind)) :
    (skipLayout .between behind).length < cs.length := by
  obtain ⟨word, rfl, lowered, -⟩ := scanWord?_eq_some_iff.mp isNot
  have size : word.length = 3 := by simpa using congrArg List.length lowered
  have suffix := (skipLayout_suffix behind).length_le
  rw [List.length_append]
  omega

/-- More negations than there are characters are never needed. -/
theorem matched?_negation_congr
    {depth other : Nat}
    (enough : cs.length < depth)
    (enoughOther : cs.length < other) :
    (negation m depth cs).matched? = (negation m other cs).matched? := by
  induction depth generalizing other cs with
  | zero => omega
  | succ depth inductionHypothesis =>
      cases other with
      | zero => omega
      | succ other =>
          simp only [negation, matched?_rule, matched?_orElse, matched?_spaced_bind, keyword,
            matched?_token]
          congr 1
          refine Option.bind_congr fun found isNot => ?_
          have shorter := length_behindNot isNot
          rw [matched?_bind, matched?_bind, inductionHypothesis (by omega) (by omega : _ < other)]

/-- A negation is `not` in front of a negation, or a comparison. -/
theorem matched?_unary :
    (unary m cs).matched? =
      ((scanWord? "not".toList cs).bind fun found =>
        (unary m (skipLayout .between found.2)).matched?.map fun inner =>
          (inner.1.map Expr.not, inner.2)).or (comparison m cs).matched? := by
  rw [unary, negation, matched?_rule, matched?_orElse, matched?_spaced_bind, keyword,
    matched?_token]
  congr 1
  refine Option.bind_congr fun found isNot => ?_
  have shorter := length_behindNot isNot
  rw [matched?_bind, unary, matched?_negation_congr shorter (Nat.lt_succ_self _)]
  cases (negation m _ (skipLayout .between found.2)).matched? <;> rfl

/-- Whatever is read as a negation can be negated. -/
theorem ReadsAt.negated
    (reads : ReadsAt Grammar.unary EndsComparison e text)
    (opens : Opens text) :
    ReadsAt Grammar.unary EndsComparison (.not e) ("not ".toList ++ text) := by
  intro bound m nests rest ends short
  have isNot : scanWord? "not".toList ("not ".toList ++ (text ++ rest)) =
      some ((), ' ' :: (text ++ rest)) := rfl
  rw [List.append_assoc] at short ⊢
  have shorter : (text ++ rest).length < bound + 1 := by
    rw [List.length_append] at short
    omega
  rw [matched?_unary, isNot, Option.bind_some, skipLayout_blank (opens.append rest),
    reads nests rest ends shorter]
  rfl

end Negations

/-- The display text is read back, and as an operand if it is displayed as one. -/
structure ShownBack
    (e : Expr) :
    Prop where
  unary : ReadsAt unary EndsComparison e e.shown
  operand : e.isOperand = true → ReadsAt operand EndsOperand e e.shown

/-- A display text begins with no layout. -/
theorem opens_shown
    (named : e.Named)
    (noReals : e.NoReals) :
    Opens e.shown := by
  induction e with
  | item name =>
      exact (Expr.everywhere_item.mp named).opens
  | member item property =>
      rw [Expr.shown_member]
      exact (Expr.everywhere_member.mp named).1.opens.append _
  | literal value =>
      cases value with
      | null => exact .visible rfl (by decide) (by decide)
      | integer n =>
          rw [Expr.shown_integer, toList_ofInt]
          exact opens_minus _ (isDigits_digits _)
      | real x => exact absurd rfl (Expr.everywhere_literal.mp noReals x)
      | text s =>
          rw [Expr.shown_text]
          exact .visible rfl (by decide) (by decide)
  | parameter name =>
      rw [Expr.shown_parameter]
      exact .visible rfl (by decide) (by decide)
  | compare left op right leftOpens =>
      rw [Expr.shown_compare]
      exact (leftOpens (Expr.everywhere_compare.mp named).2.1
        (Expr.everywhere_compare.mp noReals).2.1).append _
  | and =>
      rw [Expr.shown_and]
      exact .visible rfl (by decide) (by decide)
  | or =>
      rw [Expr.shown_or]
      exact .visible rfl (by decide) (by decide)
  | not =>
      rw [Expr.shown_not]
      exact .visible rfl (by decide) (by decide)
  | call function args =>
      rw [Expr.shown_call]
      exact (Expr.everywhere_call.mp named).1.1.opens.append _

/-- What is displayed as an operand does not begin with `not`. -/
theorem noNot_shown
    (named : e.Named)
    (noReals : e.NoReals)
    (isOperand : e.isOperand = true) :
    NoNot e.shown := by
  cases e with
  | item name => exact (Expr.everywhere_item.mp named).noNot
  | member item property =>
      rw [Expr.shown_member]
      exact (Expr.everywhere_member.mp named).1.noNot_append rfl
  | literal value =>
      cases value with
      | null => exact fun _ _ => rfl
      | integer n =>
          rw [Expr.shown_integer, toList_ofInt]
          exact fun _ _ => scanWord?_minus (isDigits_digits _) (by decide) (by decide)
      | real x => exact absurd rfl (Expr.everywhere_literal.mp noReals x)
      | text s =>
          rw [Expr.shown_text]
          exact fun _ _ => scanWord?_of_head (by decide)
  | parameter name =>
      rw [Expr.shown_parameter]
      exact fun _ _ => scanWord?_of_head (by decide)
  | and =>
      rw [Expr.shown_and]
      exact fun _ _ => scanWord?_of_head (by decide)
  | or =>
      rw [Expr.shown_or]
      exact fun _ _ => scanWord?_of_head (by decide)
  | call function args =>
      rw [Expr.shown_call]
      exact (Expr.everywhere_call.mp named).1.1.noNot_append rfl
  | compare => cases isOperand
  | not => cases isOperand

/-- What is read back as an operand is read back as an expression. -/
theorem ShownBack.ofOperand
    (reads : ReadsAt Grammar.operand EndsOperand e e.shown)
    (noNot : NoNot e.shown) :
    ShownBack e where
  unary := reads.comparison.unary noNot
  operand := fun _ => reads

/-- Two parts with `and` between them are read in parentheses. -/
theorem readsAt_and
    (leftReads : ReadsAt unary EndsComparison left left.shown)
    (rightReads : ReadsAt unary EndsComparison right right.shown)
    (leftOpens : Opens left.shown)
    (rightOpens : Opens right.shown) :
    ReadsAt operand EndsOperand (.and left right) (Expr.and left right).shown := by
  rw [Expr.shown_and]
  have pair : ReadsAt conjunction EndsConjunction (.and left right)
      (left.shown ++ ' ' :: ("and".toList ++ ' ' :: right.shown)) :=
    leftReads.keywordPair rightReads rightOpens (fun _ => EndsConjunction.toEndsComparison)
      (fun _ ends => ends.noAnd) (.visible rfl (by decide) (by decide)) (fun _ => rfl)
      fun _ => endsComparison_and
  exact readsAt_parenthesised (leftOpens.append _) pair.disjunction

/-- Two parts with `or` between them are read in parentheses. -/
theorem readsAt_or
    (leftReads : ReadsAt unary EndsComparison left left.shown)
    (rightReads : ReadsAt unary EndsComparison right right.shown)
    (leftOpens : Opens left.shown)
    (rightOpens : Opens right.shown) :
    ReadsAt operand EndsOperand (.or left right) (Expr.or left right).shown := by
  rw [Expr.shown_or]
  have pair : ReadsAt disjunction EndsExpr (.or left right)
      (left.shown ++ ' ' :: ("or".toList ++ ' ' :: right.shown)) :=
    leftReads.conjunction.keywordPair rightReads.conjunction rightOpens
      (fun _ => EndsExpr.toEndsConjunction) (fun _ ends => ends.noOr)
      (.visible rfl (by decide) (by decide)) (fun _ => rfl) fun _ => endsConjunction_or
  exact readsAt_parenthesised (leftOpens.append _) pair

/-- An unambiguous expression is read back from its display text. -/
theorem shownBack_of_unambiguous
    (named : e.Named)
    (noReals : e.NoReals)
    (unambiguous : e.Unambiguous) :
    ShownBack e := by
  induction e with
  | item name =>
      have proper := Expr.everywhere_item.mp named
      exact .ofOperand (readsAt_item proper) proper.noNot
  | member item property =>
      have noNot := noNot_shown named noReals rfl
      obtain ⟨itemProper, propertyProper⟩ := Expr.everywhere_member.mp named
      refine .ofOperand ?_ noNot
      rw [Expr.shown_member]
      exact readsAt_member itemProper propertyProper
  | literal value =>
      refine .ofOperand ?_ (noNot_shown named noReals rfl)
      cases value with
      | null => exact readsAt_null
      | integer n => exact readsAt_integer n
      | real x => exact absurd rfl (Expr.everywhere_literal.mp noReals x)
      | text s =>
          rw [Expr.shown_text]
          exact readsAt_text s (.inl rfl)
  | parameter name =>
      refine .ofOperand ?_ (noNot_shown named noReals rfl)
      rw [Expr.shown_parameter]
      exact readsAt_parameter (Expr.everywhere_parameter.mp named)
  | compare left op right leftBack rightBack =>
      obtain ⟨-, leftNamed, rightNamed⟩ := Expr.everywhere_compare.mp named
      obtain ⟨-, leftNoReals, rightNoReals⟩ := Expr.everywhere_compare.mp noReals
      obtain ⟨⟨leftOperand, rightOperand⟩, leftUnambiguous, rightUnambiguous⟩ :=
        Expr.everywhere_compare.mp unambiguous
      have leftReads := (leftBack leftNamed leftNoReals leftUnambiguous).operand leftOperand
      have rightReads := (rightBack rightNamed rightNoReals rightUnambiguous).operand rightOperand
      have reads := leftReads.compare op rightReads (opens_shown rightNamed rightNoReals)
      have noNot : NoNot (left.shown ++ ' ' :: (op.symbol.toList ++ ' ' :: right.shown)) := by
        refine (noNot_shown leftNamed leftNoReals leftOperand).append fun rest => ?_
        rw [List.cons_append, List.append_assoc]
        exact endsOperand_symbol op
      rw [← Expr.shown_compare] at reads noNot
      exact ⟨reads.unary noNot, fun isOperand => nomatch isOperand⟩
  | and left right leftBack rightBack =>
      have noNot := noNot_shown named noReals rfl
      obtain ⟨-, leftNamed, rightNamed⟩ := Expr.everywhere_and.mp named
      obtain ⟨-, leftNoReals, rightNoReals⟩ := Expr.everywhere_and.mp noReals
      obtain ⟨-, leftUnambiguous, rightUnambiguous⟩ := Expr.everywhere_and.mp unambiguous
      exact .ofOperand
        (readsAt_and (leftBack leftNamed leftNoReals leftUnambiguous).unary
          (rightBack rightNamed rightNoReals rightUnambiguous).unary
          (opens_shown leftNamed leftNoReals) (opens_shown rightNamed rightNoReals)) noNot
  | or left right leftBack rightBack =>
      have noNot := noNot_shown named noReals rfl
      obtain ⟨-, leftNamed, rightNamed⟩ := Expr.everywhere_or.mp named
      obtain ⟨-, leftNoReals, rightNoReals⟩ := Expr.everywhere_or.mp noReals
      obtain ⟨-, leftUnambiguous, rightUnambiguous⟩ := Expr.everywhere_or.mp unambiguous
      exact .ofOperand
        (readsAt_or (leftBack leftNamed leftNoReals leftUnambiguous).unary
          (rightBack rightNamed rightNoReals rightUnambiguous).unary
          (opens_shown leftNamed leftNoReals) (opens_shown rightNamed rightNoReals)) noNot
  | not inner innerBack =>
      have innerNamed := (Expr.everywhere_not.mp named).2
      have innerNoReals := (Expr.everywhere_not.mp noReals).2
      have back := innerBack innerNamed innerNoReals (Expr.everywhere_not.mp unambiguous).2
      refine ⟨?_, fun isOperand => nomatch isOperand⟩
      rw [Expr.shown_not]
      exact back.unary.negated (opens_shown innerNamed innerNoReals)
  | call function args argsBack =>
      have noNot := noNot_shown named noReals rfl
      obtain ⟨⟨proper, lower⟩, argsNamed⟩ := Expr.everywhere_call.mp named
      have argsNoReals := (Expr.everywhere_call.mp noReals).2
      have argsUnambiguous := (Expr.everywhere_call.mp unambiguous).2
      refine .ofOperand ?_ noNot
      rw [Expr.shown_call]
      refine readsAt_call proper lower (List.forall₂_map_right_iff.mpr ?_)
      refine List.forall₂_same.mpr fun arg member => ?_
      have back := argsBack arg member (argsNamed arg member) (argsNoReals arg member)
        (argsUnambiguous arg member)
      exact ⟨opens_shown (argsNamed arg member) (argsNoReals arg member),
        back.unary.conjunction.disjunction⟩

end Query

end FullTextQuery
