import FullTextQuery.Proofs.Query.CanonicalOperands

namespace FullTextQuery.Query

/-!
# Canonical texts of expressions

An expression is read back from each of its canonical texts.  An operand is read at
the innermost level of the grammar, and every level around it passes it on where
what follows does not continue it.
-/

open Matcher Grammar

variable {rest : List Char}

section Levels

variable {e left right : Expr} {text leftText rightText : List Char}

/-- An operand alone is a comparison where it ends and no operator follows. -/
theorem ReadsAt.loneOperand
    {ends stronger : List Char → Prop}
    (reads : ReadsAt operand ends e text)
    (implies : ∀ rest, stronger rest → ends rest)
    (noOperator : ∀ rest, stronger rest → scanOperator? (skipLayout .between rest) = none) :
    ReadsAt comparison stronger e text := by
  intro bound m nests rest endsRest short
  have noSecond : ((do layout; let op ← spaced operator; let other ← operand m; return (op, other) :
      Matcher (Comparison × Reading Expr)) rest).matched? = none := by
    rw [matched?_bind_of_some matched?_layout, matched?_spaced_bind, operator, matched?_token,
      noOperator rest endsRest, Option.bind_none]
  rw [Grammar.comparison, matched?_rule,
    matched?_bind_of_some (reads nests rest (implies rest endsRest) short),
    matched?_bind_of_some (matched?_optional_of_none noSecond), matched?_pure]

/-- An operand alone is a comparison. -/
theorem ReadsAt.comparison
    (reads : ReadsAt operand EndsOperand e text) :
    ReadsAt comparison EndsComparison e text :=
  reads.loneOperand (fun _ => EndsComparison.toEndsOperand) fun _ ends => ends.noOperator

/-- An operand ends before the sign of a comparison. -/
theorem endsOperand_symbol
    (op : Comparison) :
    EndsOperand (' ' :: (op.symbol.toList ++ rest)) := by
  refine ⟨by simp [continuesOperand, isNameChar], ?_⟩
  cases op <;> exact Text.stops_cons.mpr rfl

/-- Two operands with an operator between them are a comparison. -/
theorem ReadsAt.compare
    (op : Comparison)
    (leftReads : ReadsAt operand EndsOperand left leftText)
    (rightReads : ReadsAt operand EndsOperand right rightText)
    (rightOpens : Opens rightText) :
    ReadsAt Grammar.comparison EndsComparison (.compare left op right)
      (leftText ++ ' ' :: (op.symbol.toList ++ ' ' :: rightText)) := by
  intro bound m nests rest ends short
  simp only [List.append_assoc, List.cons_append] at short ⊢
  have skipped : skipLayout .between (' ' :: (op.symbol.toList ++ ' ' :: (rightText ++ rest))) =
      op.symbol.toList ++ ' ' :: (rightText ++ rest) := by
    cases op <;> rfl
  have isOperator : scanOperator? (op.symbol.toList ++ ' ' :: (rightText ++ rest)) =
      some (op, ' ' :: (rightText ++ rest)) := by
    cases op <;> rfl
  have shorter : (rightText ++ rest).length < bound + 1 := by
    simp only [List.length_append, List.length_cons] at short ⊢
    omega
  have second : ((do layout; let op ← spaced operator; let other ← operand m; return (op, other) :
      Matcher (Comparison × Reading Expr))
        (' ' :: (op.symbol.toList ++ ' ' :: (rightText ++ rest)))).matched? =
          some ((op, .ok right), rest) := by
    rw [matched?_bind_of_some matched?_layout, skipped, matched?_spaced_bind, operator,
      matched?_token, isOperator, Option.bind_some, skipLayout_blank (rightOpens.append rest),
      matched?_bind_of_some (rightReads nests rest ends.toEndsOperand shorter), matched?_pure]
  rw [Grammar.comparison, matched?_rule,
    matched?_bind_of_some (leftReads nests _ (endsOperand_symbol op) short),
    matched?_bind_of_some (matched?_optional_of_some second), matched?_pure]
  rfl

/-- Whether a text is not a negation, whatever follows an operand. -/
def NoNot
    (text : List Char) :
    Prop :=
  ∀ rest, EndsOperand rest → scanWord? "not".toList (text ++ rest) = none

/-- A comparison is a negation with no `not` in front. -/
theorem ReadsAt.notNegated
    {ends : List Char → Prop}
    (reads : ReadsAt Grammar.comparison ends e text)
    (noNot : ∀ rest, ends rest → scanWord? "not".toList (text ++ rest) = none)
    (depth : Nat) :
    ReadsAt (fun m => negation m (depth + 1)) ends e text := by
  intro bound m nests rest endsRest short
  have noKeyword : (keyword "not" (text ++ rest)).matched? = none := by
    rw [keyword, matched?_token, noNot rest endsRest]
  show (Grammar.negation m (depth + 1) (text ++ rest)).matched? = _
  rw [Grammar.negation, matched?_rule, matched?_orElse, matched?_spaced_bind, noKeyword,
    Option.bind_none, Option.none_or, reads nests rest endsRest short]

/-- What reads as a comparison reads as a negation, if it does not begin with `not`. -/
theorem ReadsAt.negation
    (reads : ReadsAt Grammar.comparison EndsComparison e text)
    (noNot : NoNot text)
    (depth : Nat) :
    ReadsAt (fun m => negation m (depth + 1)) EndsComparison e text :=
  reads.notNegated (fun rest ends => noNot rest ends.toEndsOperand) depth

theorem ReadsAt.unary
    (reads : ReadsAt Grammar.comparison EndsComparison e text)
    (noNot : NoNot text) :
    ReadsAt unary EndsComparison e text :=
  fun _ _ nests rest => reads.negation noNot (text ++ rest).length nests rest

/-- An operand behind `not` is negated. -/
theorem ReadsAt.not
    (reads : ReadsAt operand EndsOperand e text)
    (opens : Opens text)
    (noNot : NoNot text) :
    ReadsAt Grammar.unary EndsComparison (.not e) ("not ".toList ++ text) := by
  intro bound m nests rest ends short
  have isNot : (keyword "not" ("not ".toList ++ (text ++ rest))).matched? =
      some ((), ' ' :: (text ++ rest)) := by
    rw [keyword, matched?_token]
    rfl
  rw [List.append_assoc] at short ⊢
  have shorter : (text ++ rest).length < bound + 1 := by
    rw [List.length_append] at short
    omega
  have size : ("not ".toList ++ (text ++ rest)).length = (text ++ rest).length + 3 + 1 := by
    simp only [List.length_append]
    rw [show "not ".toList.length = 4 from rfl]
    omega
  rw [Grammar.unary, size, Grammar.negation, matched?_rule, matched?_orElse,
    matched?_spaced_bind, isNot, Option.bind_some, skipLayout_blank (opens.append rest),
    matched?_bind_of_some
      (reads.comparison.negation noNot _ nests rest ends shorter), matched?_pure, Option.some_or]
  rfl

section Chains

variable {part : Matcher (Reading Expr) → Matcher (Reading Expr)}
  {ends stronger : List Char → Prop} {word : String} {combine : Expr → Expr → Expr}

/-- One part is a chain where the keyword does not follow. -/
theorem ReadsAt.keywordChain
    (reads : ReadsAt part ends e text)
    (implies : ∀ rest, stronger rest → ends rest)
    (noWord : ∀ rest, stronger rest → scanWord? word.toList (skipLayout .between rest) = none) :
    ReadsAt (fun m => keywordChain word combine (part m)) stronger e text := by
  intro bound m nests rest endsRest short
  have noOther : ((do layout; spaced (keyword word); part m : Matcher (Reading Expr))
      rest).matched? = none := by
    rw [matched?_bind_of_some matched?_layout, matched?_spaced_bind, keyword, matched?_token,
      noWord rest endsRest, Option.bind_none]
  show (Grammar.keywordChain word combine (part m) (text ++ rest)).matched? = _
  rw [Grammar.keywordChain, matched?_rule,
    matched?_bind_of_some (reads nests rest (implies rest endsRest) short),
    matched?_bind_of_some (matched?_many_of_none noOther), matched?_pure]
  rfl

/-- Two parts with a keyword between them are combined. -/
theorem ReadsAt.keywordPair
    (leftReads : ReadsAt part ends left leftText)
    (rightReads : ReadsAt part ends right rightText)
    (rightOpens : Opens rightText)
    (implies : ∀ rest, stronger rest → ends rest)
    (noWord : ∀ rest, stronger rest → scanWord? word.toList (skipLayout .between rest) = none)
    (wordOpens : Opens word.toList)
    (isWord : ∀ more, scanWord? word.toList (word.toList ++ ' ' :: more) = some ((), ' ' :: more))
    (endsWord : ∀ more, ends (' ' :: (word.toList ++ ' ' :: more))) :
    ReadsAt (fun m => Grammar.keywordChain word combine (part m)) stronger (combine left right)
      (leftText ++ ' ' :: (word.toList ++ ' ' :: rightText)) := by
  intro bound m nests rest endsRest short
  simp only [List.append_assoc, List.cons_append] at short ⊢
  have shorter : (rightText ++ rest).length < bound + 1 := by
    simp only [List.length_append, List.length_cons] at short ⊢
    omega
  have other : ((do layout; spaced (keyword word); part m : Matcher (Reading Expr))
      (' ' :: (word.toList ++ ' ' :: (rightText ++ rest)))).matched? = some (.ok right, rest) := by
    rw [matched?_bind_of_some matched?_layout, skipLayout_blank (wordOpens.append _),
      matched?_spaced_bind, keyword, matched?_token, isWord, Option.bind_some,
      skipLayout_blank (rightOpens.append rest)]
    exact rightReads nests rest (implies rest endsRest) shorter
  have noOther : ((do layout; spaced (keyword word); part m : Matcher (Reading Expr))
      rest).matched? = none := by
    rw [matched?_bind_of_some matched?_layout, matched?_spaced_bind, keyword, matched?_token,
      noWord rest endsRest, Option.bind_none]
  have others := matched?_many_of_some other (matched?_upTo_of_none noOther _)
  show (Grammar.keywordChain word combine (part m) _).matched? = _
  rw [Grammar.keywordChain, matched?_rule,
    matched?_bind_of_some (leftReads nests _ (endsWord _) short),
    matched?_bind_of_some others, matched?_pure]
  rfl

end Chains

/-- A part is a conjunction where `and` does not follow. -/
theorem ReadsAt.conjunction
    (reads : ReadsAt Grammar.unary EndsComparison e text) :
    ReadsAt conjunction EndsConjunction e text :=
  reads.keywordChain (fun _ => EndsConjunction.toEndsComparison) fun _ ends => ends.noAnd

/-- A conjunction is a disjunction where `or` does not follow. -/
theorem ReadsAt.disjunction
    (reads : ReadsAt Grammar.conjunction EndsConjunction e text) :
    ReadsAt disjunction EndsExpr e text :=
  reads.keywordChain (fun _ => EndsExpr.toEndsConjunction) fun _ ends => ends.noOr

/-- The text is read back, alone and as an operand. -/
structure ReadBack
    (e : Expr)
    (text : List Char) :
    Prop where
  opens : Opens text
  expr : ReadsAt Grammar.disjunction EndsExpr e text
  operandOpens : Opens (e.operandText text)
  operandNoNot : NoNot (e.operandText text)
  operand : ReadsAt operand EndsOperand e (e.operandText text)

/-- An atomic expression that reads as an operand is read back. -/
theorem ReadBack.ofAtomic
    (atomic : e.isAtomic = true)
    (opens : Opens text)
    (noNot : NoNot text)
    (reads : ReadsAt Grammar.operand EndsOperand e text) :
    ReadBack e text := by
  have same : e.operandText text = text := by simp [Expr.operandText, atomic]
  exact {
    opens := opens
    expr := (reads.comparison.unary noNot).conjunction.disjunction
    operandOpens := same.symm ▸ opens
    operandNoNot := same.symm ▸ noNot
    operand := same.symm ▸ reads }

/--
An expression of parts that reads as a disjunction is read back, as an operand in
parentheses.
-/
theorem ReadBack.ofParts
    (notAtomic : e.isAtomic = false)
    (opens : Opens text)
    (reads : ReadsAt Grammar.disjunction EndsExpr e text) :
    ReadBack e text := by
  have inParens : e.operandText text = '(' :: (text ++ [')']) := by
    simp [Expr.operandText, notAtomic]
  exact {
    opens := opens
    expr := reads
    operandOpens := inParens.symm ▸ .visible rfl (by decide) (by decide)
    operandNoNot := inParens.symm ▸ fun _ _ => scanWord?_of_head (by decide)
    operand := inParens.symm ▸ readsAt_parenthesised opens reads }

/-- An operand in front of more text is no negation either. -/
theorem NoNot.append
    (noNot : NoNot text)
    {more : List Char}
    (ends : ∀ rest, EndsOperand (more ++ rest)) :
    NoNot (text ++ more) := by
  intro rest _
  rw [List.append_assoc]
  exact noNot _ (ends rest)

/-- No name begins with the word `not`. -/
theorem IsName.noNot
    {name : String}
    (proper : IsName name) :
    NoNot name.toList :=
  fun _ ends => proper.scanWord? ends.noName (by decide)

/-- A comparison ends in front of `and`. -/
theorem endsComparison_and :
    EndsComparison (" and ".toList ++ rest) :=
  ⟨⟨Text.stops_cons.mpr rfl, Text.stops_cons.mpr rfl⟩, rfl⟩

/-- A conjunction ends in front of `or`. -/
theorem endsConjunction_or :
    EndsConjunction (" or ".toList ++ rest) :=
  ⟨⟨⟨Text.stops_cons.mpr rfl, Text.stops_cons.mpr rfl⟩, rfl⟩, rfl⟩

/-- An identifier in front of a sign is no negation. -/
theorem IsName.noNot_append
    {name : String}
    (proper : IsName name)
    {c : Char}
    {others : List Char}
    (noName : isNameChar c = false) :
    NoNot (name.toList ++ c :: others) := by
  intro rest _
  rw [List.append_assoc]
  exact proper.scanWord? (by simpa using noName) (by decide)

/-- Every canonical text of an expression is read back. -/
theorem readBack_of_spells
    (spells : e.Spells text)
    (named : e.Named) :
    ReadBack e text := by
  induction spells with
  | item =>
      have proper := Expr.everywhere_item.mp named
      exact .ofAtomic rfl proper.opens proper.noNot (readsAt_item proper)
  | member =>
      obtain ⟨itemProper, propertyProper⟩ := Expr.everywhere_member.mp named
      exact .ofAtomic rfl (itemProper.opens.append _) (itemProper.noNot_append rfl)
        (readsAt_member itemProper propertyProper)
  | null =>
      exact .ofAtomic rfl (.visible rfl (by decide) (by decide)) (fun _ _ => rfl) readsAt_null
  | @integer n =>
      have proper := isDigits_digits n.toInt.natAbs
      refine .ofAtomic rfl ?_ ?_ (readsAt_integer n)
      · rw [toList_ofInt]
        exact opens_minus _ proper
      · intro rest _
        rw [toList_ofInt]
        exact scanWord?_minus proper (by decide) (by decide)
  | @text quote s isQuote =>
      refine .ofAtomic rfl ?_ ?_ (readsAt_text s isQuote)
      · rcases isQuote with rfl | rfl <;> exact .visible rfl (by decide) (by decide)
      · rcases isQuote with rfl | rfl <;> exact fun _ _ => scanWord?_of_head (by decide)
  | parameter =>
      exact .ofAtomic rfl (.visible rfl (by decide) (by decide))
        (fun _ _ => scanWord?_of_head (by decide))
        (readsAt_parameter (Expr.everywhere_parameter.mp named))
  | @compare left right leftText rightText op _ _ leftBack rightBack =>
      obtain ⟨-, leftNamed, rightNamed⟩ := Expr.everywhere_compare.mp named
      have leftBack := leftBack leftNamed
      have rightBack := rightBack rightNamed
      refine .ofParts rfl (leftBack.operandOpens.append _) ?_
      have ends : ∀ rest, EndsOperand
          (' ' :: (op.symbol.toList ++ ' ' :: right.operandText rightText) ++ rest) := by
        intro rest
        rw [List.cons_append, List.append_assoc]
        exact endsOperand_symbol op
      exact ((leftBack.operand.compare op rightBack.operand rightBack.operandOpens).unary
        (leftBack.operandNoNot.append ends)).conjunction.disjunction
  | @and left right leftText rightText _ _ leftBack rightBack =>
      obtain ⟨-, leftNamed, rightNamed⟩ := Expr.everywhere_and.mp named
      have leftBack := leftBack leftNamed
      have rightBack := rightBack rightNamed
      refine .ofParts rfl (leftBack.operandOpens.append _) ?_
      have pair : ReadsAt Grammar.conjunction EndsConjunction (.and left right)
          (left.operandText leftText ++ (" and ".toList ++ right.operandText rightText)) :=
        (leftBack.operand.comparison.unary leftBack.operandNoNot).keywordPair
          (rightBack.operand.comparison.unary rightBack.operandNoNot) rightBack.operandOpens
          (fun _ => EndsConjunction.toEndsComparison) (fun _ ends => ends.noAnd)
          (.visible rfl (by decide) (by decide)) (fun _ => rfl) fun _ => endsComparison_and
      exact pair.disjunction
  | @or left right leftText rightText _ _ leftBack rightBack =>
      obtain ⟨-, leftNamed, rightNamed⟩ := Expr.everywhere_or.mp named
      have leftBack := leftBack leftNamed
      have rightBack := rightBack rightNamed
      refine .ofParts rfl (leftBack.operandOpens.append _) ?_
      exact (leftBack.operand.comparison.unary leftBack.operandNoNot).conjunction.keywordPair
        (rightBack.operand.comparison.unary rightBack.operandNoNot).conjunction
        rightBack.operandOpens (fun _ => EndsExpr.toEndsConjunction) (fun _ ends => ends.noOr)
        (.visible rfl (by decide) (by decide)) (fun _ => rfl) fun _ => endsConjunction_or
  | not _ operandBack =>
      have operandBack := operandBack (Expr.everywhere_not.mp named).2
      refine .ofParts rfl (.visible rfl (by decide) (by decide)) ?_
      exact (operandBack.operand.not operandBack.operandOpens
        operandBack.operandNoNot).conjunction.disjunction
  | @call function args texts sameLength _ argsBack =>
      obtain ⟨⟨proper, lower⟩, argsNamed⟩ := Expr.everywhere_call.mp named
      refine .ofAtomic rfl (proper.opens.append _) (proper.noNot_append rfl)
        (readsAt_call proper lower ?_)
      refine List.forall₂_iff_zip.mpr ⟨sameLength, fun {arg text} member => ?_⟩
      have back := argsBack arg text member (argsNamed arg (List.of_mem_zip member).1)
      exact ⟨back.opens, back.expr⟩

end Levels

end FullTextQuery.Query
