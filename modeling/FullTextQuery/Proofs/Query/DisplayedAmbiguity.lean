import FullTextQuery.Proofs.Query.Displayed
import FullTextQuery.Proofs.Syntax.LoneExpressions

namespace FullTextQuery.Query

/-!
# What is read of display texts

Whatever is read of a display text is unambiguous, because the only parentheses around
operands that a display text has are those of conjunctions and disjunctions.  Where a
comparison stands for an operand the reading gets stuck in front of an operator, and
where an argument cannot be read, in front of the parenthesis of the call: nothing
around goes on there.  An expression is therefore read back exactly if it is unambiguous.
-/

open Matcher Grammar

variable {α : Type} {m part : Matcher (Reading Expr)} {cs rest target text : List Char}
  {e left right : Expr} {answer other : Option (Reading Expr × List Char)}
  {good weaker : Expr → List Char → Prop}

/-- Where the reading of a display text can end too early. -/
inductive Stuck : List Char → Prop where
  | opened {others : List Char} : Stuck ('(' :: others)
  | operator {op : Comparison} {others : List Char} :
      Stuck (' ' :: (op.symbol.toList ++ ' ' :: others))

namespace Stuck

/-- No chain goes on where the reading is stuck. -/
theorem noWord
    (stuck : Stuck cs)
    {word : String}
    (chains : word = "and" ∨ word = "or") :
    scanWord? word.toList (skipLayout .between cs) = none := by
  cases stuck with
  | opened => rcases chains with rfl | rfl <;> rfl
  | @operator op => rcases chains with rfl | rfl <;> cases op <;> rfl

/-- No list is continued or closed where the reading is stuck. -/
theorem stops
    (stuck : Stuck cs)
    {c : Char}
    (isSign : c = ')' ∨ c = ',') :
    Text.Stops (· == c) (skipLayout .between cs) := by
  cases stuck with
  | opened => rcases isSign with rfl | rfl <;> exact Text.stops_cons.mpr rfl
  | @operator op =>
      rcases isSign with rfl | rfl <;> cases op <;> exact Text.stops_cons.mpr rfl

end Stuck

/-- Whether an answer, if there is one, is an expression that is good with what it leaves. -/
def Finds
    (good : Expr → List Char → Prop)
    (answer : Option (Reading Expr × List Char)) :
    Prop :=
  ∀ reading left, answer = some (reading, left) → ∃ e, reading = .ok e ∧ good e left

namespace Finds

theorem nothing :
    Finds good none :=
  fun _ _ found => nomatch found

theorem found
    (isGood : good e rest) :
    Finds good (some (.ok e, rest)) := by
  rintro _ _ ⟨⟩
  exact ⟨e, rfl, isGood⟩

theorem or
    (one : Finds good answer)
    (two : Finds good other) :
    Finds good (answer.or other) := by
  cases answer with
  | none => exact two
  | some _ => exact one

/-- What finds only good expressions finds only those of a weaker kind. -/
theorem mono
    (finds : Finds good answer)
    (implies : ∀ e left, good e left → weaker e left) :
    Finds weaker answer := by
  intro reading left isFound
  obtain ⟨e, rfl, isGood⟩ := finds reading left isFound
  exact ⟨e, rfl, implies e left isGood⟩

end Finds

/-- Whether all that a level of the grammar finds in a text is good, whatever it ends before. -/
def FindsAt
    (level : Matcher (Reading Expr) → Matcher (Reading Expr))
    (ends : List Char → Prop)
    (good : List Char → Expr → List Char → Prop)
    (text : List Char) :
    Prop :=
  ∀ ⦃bound : Nat⦄ ⦃m : Matcher (Reading Expr)⦄, Nests bound m →
    ∀ rest, ends rest → (text ++ rest).length < bound + 1 →
      Finds (good rest) (level m (text ++ rest)).matched?

/-- An unambiguous expression is read, up to its end or until the reading is stuck. -/
def GoodExpr
    (rest : List Char)
    (e : Expr)
    (left : List Char) :
    Prop :=
  e.Unambiguous ∧ (left = rest ∨ Stuck left)

/-- What is read can be an operand. -/
def GoodOperand
    (rest : List Char)
    (e : Expr)
    (left : List Char) :
    Prop :=
  e.isOperand = true ∧ GoodExpr rest e left

/-- What is read can be an operand, and is stuck only in front of a parenthesis. -/
def GoodUnit
    (rest : List Char)
    (e : Expr)
    (left : List Char) :
    Prop :=
  e.isOperand = true ∧ e.Unambiguous ∧ (left = rest ∨ ∃ others, left = '(' :: others)

/-- A good unit is a good operand. -/
theorem GoodUnit.operand
    (isGood : GoodUnit rest e cs) :
    GoodOperand rest e cs := by
  obtain ⟨isOperand, unambiguous, rfl | ⟨others, rfl⟩⟩ := isGood
  · exact ⟨isOperand, unambiguous, .inl rfl⟩
  · exact ⟨isOperand, unambiguous, .inr .opened⟩

section Chains

variable {values : List α} {between leftText rightText : List Char} {p : Matcher α}
  {word : String} {combine : Expr → Expr → Expr}

/-- A repetition is empty, or its part and a repetition behind it. -/
theorem upTo_cases
    {count : Nat}
    (matched : (p.upTo count cs).matched? = some (values, rest)) :
    (values = [] ∧ rest = cs) ∨
      ∃ value between others fewer, (p cs).matched? = some (value, between) ∧
        (p.upTo fewer between).matched? = some (others, rest) ∧ values = value :: others := by
  cases count with
  | zero =>
      cases matched
      exact .inl ⟨rfl, rfl⟩
  | succ count =>
      cases first : (p cs).matched? with
      | none =>
          rw [matched?_upTo_of_none first] at matched
          cases matched
          exact .inl ⟨rfl, rfl⟩
      | some found =>
          obtain ⟨value, between⟩ := found
          obtain ⟨⟨others, last⟩, more⟩ := exists_matched?_upTo p count between
          rw [matched?_upTo_of_some first more] at matched
          cases matched
          exact .inr ⟨value, between, others, count, rfl, more, rfl⟩

/-- A part behind a word is not found where the word does not stand. -/
theorem matched?_behindWord_of_none
    (part : Matcher (Reading Expr))
    (noWord : scanWord? word.toList (skipLayout .between cs) = none) :
    ((do layout; spaced (keyword word); part : Matcher (Reading Expr)) cs).matched? = none := by
  rw [matched?_bind_of_some matched?_layout, matched?_spaced_bind, keyword, matched?_token, noWord,
    Option.bind_none]

/-- Where no keyword follows, a chain is its first part. -/
theorem Finds.keywordChain
    (finds : Finds good (part cs).matched?)
    (noWord : ∀ e left, good e left → scanWord? word.toList (skipLayout .between left) = none) :
    Finds good (keywordChain word combine part cs).matched? := by
  intro reading left matched
  rw [Grammar.keywordChain, matched?_rule, matched?_bind] at matched
  obtain ⟨⟨first, between⟩, isFirst, matched⟩ := Option.bind_eq_some_iff.mp matched
  obtain ⟨e, rfl, isGood⟩ := finds first between isFirst
  have noMore := matched?_behindWord_of_none part (noWord e between isGood)
  rw [matched?_bind_of_some (matched?_many_of_none noMore), matched?_pure] at matched
  cases matched
  exact ⟨e, rfl, isGood⟩

/-- A text behind a word of its own. -/
def behindWord
    (word : String)
    (text : List Char) :
    List Char :=
  ' ' :: (word.toList ++ ' ' :: text)

/-- Two parts are combined, or the reading ends between them or where it is stuck. -/
def GoodPair
    (middle rest : List Char)
    (e : Expr)
    (left : List Char) :
    Prop :=
  e.Unambiguous ∧ ((e.isOperand = true ∧ left = rest) ∨ left = middle ∨ Stuck left)

/-- What a chain finds in two texts with its word between them is without ambiguity. -/
theorem finds_keywordPair
    (leftFinds : Finds (GoodExpr (behindWord word text))
      (part (leftText ++ behindWord word text)).matched?)
    (rightFinds : Finds (GoodExpr rest) (part text).matched?)
    (opens : Opens text)
    (chains : word = "and" ∨ word = "or")
    (noWord : scanWord? word.toList (skipLayout .between rest) = none)
    (combines : ∀ l r : Expr, l.Unambiguous → r.Unambiguous →
      (combine l r).Unambiguous ∧ (combine l r).isOperand = true) :
    Finds (GoodPair (behindWord word text) rest)
      (keywordChain word combine part (leftText ++ behindWord word text)).matched? := by
  have skipped : skipLayout .between (behindWord word text) = word.toList ++ ' ' :: text := by
    rcases chains with rfl | rfl <;> rfl
  have isWord : scanWord? word.toList (word.toList ++ ' ' :: text) = some ((), ' ' :: text) := by
    rcases chains with rfl | rfl <;> rfl
  have second : ((do layout; spaced (keyword word); part : Matcher (Reading Expr))
      (behindWord word text)).matched? = (part text).matched? := by
    rw [matched?_bind_of_some matched?_layout, skipped, matched?_spaced_bind, keyword,
      matched?_token, isWord, Option.bind_some, skipLayout_blank opens]
  intro reading left matched
  rw [Grammar.keywordChain, matched?_rule, matched?_bind] at matched
  obtain ⟨⟨first, between⟩, isFirst, matched⟩ := Option.bind_eq_some_iff.mp matched
  obtain ⟨l, rfl, leftUnambiguous, ends⟩ := leftFinds first between isFirst
  rw [matched?_bind] at matched
  obtain ⟨⟨values, last⟩, more, matched⟩ := Option.bind_eq_some_iff.mp matched
  cases matched
  obtain ⟨rfl, rfl⟩ | ⟨value, next, others, fewer, isSecond, others', rfl⟩ := upTo_cases more
  · exact ⟨l, rfl, leftUnambiguous, .inr ends⟩
  · obtain rfl | stuck := ends
    · rw [second] at isSecond
      obtain ⟨r, rfl, rightUnambiguous, ends⟩ := rightFinds value next isSecond
      have noThird : scanWord? word.toList (skipLayout .between next) = none := by
        obtain rfl | stuck := ends
        · exact noWord
        · exact stuck.noWord chains
      obtain ⟨rfl, rfl⟩ | ⟨value, _, _, _, isThird, -⟩ := upTo_cases others'
      · obtain ⟨unambiguous, isOperand⟩ := combines l r leftUnambiguous rightUnambiguous
        refine ⟨combine l r, rfl, unambiguous, ?_⟩
        exact ends.imp (fun same => ⟨isOperand, same⟩) .inr
      · rw [matched?_behindWord_of_none _ noThird] at isThird
        cases isThird
    · rw [matched?_behindWord_of_none _ (stuck.noWord chains)] at isSecond
      cases isSecond

end Chains

section Comparisons

/-- An operator and the operand behind it. -/
def secondOperand
    (m : Matcher (Reading Expr)) :
    Matcher (Comparison × Reading Expr) := do
  layout
  let op ← spaced operator
  let other ← operand m
  return (op, other)

/--
What may stand behind the first operand of a comparison that ends in front of a target
or is stuck: the target itself, or an operator with an operand in front of it.
-/
structure Continues
    (m : Matcher (Reading Expr))
    (target rest : List Char) :
    Prop where
  ends : EndsOperand rest
  behind : rest = target ∨ Stuck rest
  second : ∀ op reading left, (secondOperand m rest).matched? = some ((op, reading), left) →
    ∃ e, reading = .ok e ∧ GoodOperand target e left

/-- There is no second operand where no operator stands. -/
theorem matched?_secondOperand_of_none
    (noOperator : scanOperator? (skipLayout .between cs) = none) :
    (secondOperand m cs).matched? = none := by
  rw [secondOperand, matched?_bind_of_some matched?_layout, matched?_spaced_bind, operator,
    matched?_token, noOperator, Option.bind_none]

/-- Nothing more belongs to a comparison that has ended. -/
theorem continues_of_ends
    (ends : EndsComparison rest) :
    Continues m rest rest where
  ends := ends.toEndsOperand
  behind := .inl rfl
  second := by
    intro op reading left matched
    rw [matched?_secondOperand_of_none ends.noOperator] at matched
    cases matched

/-- An operator and an operand may stand behind an operand. -/
theorem continues_symbol
    (op : Comparison)
    (continues : Continues m target rest)
    (opens : Opens text)
    (finds : Finds (GoodOperand rest) (operand m (text ++ rest)).matched?) :
    Continues m target (' ' :: (op.symbol.toList ++ ' ' :: (text ++ rest))) where
  ends := endsOperand_symbol op
  behind := .inr .operator
  second := by
    intro found reading left matched
    have skipped : skipLayout .between (' ' :: (op.symbol.toList ++ ' ' :: (text ++ rest))) =
        op.symbol.toList ++ ' ' :: (text ++ rest) := by
      cases op <;> rfl
    have isOperator : scanOperator? (op.symbol.toList ++ ' ' :: (text ++ rest)) =
        some (op, ' ' :: (text ++ rest)) := by
      cases op <;> rfl
    rw [secondOperand, matched?_bind_of_some matched?_layout, skipped, matched?_spaced_bind,
      operator, matched?_token, isOperator, Option.bind_some, skipLayout_blank (opens.append rest),
      matched?_bind] at matched
    obtain ⟨⟨other, last⟩, isOther, matched⟩ := Option.bind_eq_some_iff.mp matched
    cases matched
    obtain ⟨e, rfl, isOperand, unambiguous, ends⟩ := finds _ _ isOther
    refine ⟨e, rfl, isOperand, unambiguous, ?_⟩
    obtain rfl | stuck := ends
    · exact continues.behind
    · exact .inr stuck

/-- A comparison is an operand, compared with a second one if there is one. -/
theorem matched?_comparison :
    (comparison m cs).matched? =
      (operand m cs).matched?.bind fun found =>
        ((optional (secondOperand m) found.2).matched?.map fun second =>
          (Syntax.compared found.1 second.1, second.2)) := by
  rw [comparison, matched?_rule, matched?_bind]
  refine Option.bind_congr fun found _ => ?_
  rw [matched?_bind]
  change (optional (secondOperand m) found.2).matched?.bind _ = _
  rcases (optional (secondOperand m) found.2).matched? with _ | ⟨_ | second, last⟩ <;> rfl

/-- A comparison has operands that can be operands. -/
theorem finds_comparison
    (continues : Continues m target rest)
    (finds : Finds (GoodUnit rest) (operand m cs).matched?) :
    Finds (GoodExpr target) (comparison m cs).matched? := by
  intro reading left matched
  rw [matched?_comparison] at matched
  obtain ⟨⟨first, between⟩, isFirst, matched⟩ := Option.bind_eq_some_iff.mp matched
  obtain ⟨l, rfl, leftOperand, leftUnambiguous, ends⟩ := finds first between isFirst
  obtain rfl | ⟨others, rfl⟩ := ends
  · cases second : (secondOperand m between).matched? with
    | none =>
        rw [matched?_optional_of_none second] at matched
        cases matched
        exact ⟨l, rfl, leftUnambiguous, continues.behind⟩
    | some found =>
        obtain ⟨⟨op, other⟩, last⟩ := found
        obtain ⟨r, rfl, rightOperand, rightUnambiguous, ends⟩ := continues.second _ _ _ second
        rw [matched?_optional_of_some second] at matched
        cases matched
        refine ⟨.compare l op r, rfl, ?_, ends⟩
        exact Expr.everywhere_compare.mpr
          ⟨⟨leftOperand, rightOperand⟩, leftUnambiguous, rightUnambiguous⟩
  · have noSecond : (secondOperand m ('(' :: others)).matched? = none :=
      matched?_secondOperand_of_none rfl
    rw [matched?_optional_of_none noSecond] at matched
    cases matched
    exact ⟨l, rfl, leftUnambiguous, .inr .opened⟩

/-- A unit that is no negation is read as a comparison. -/
theorem finds_unary
    (continues : Continues m target rest)
    (noNot : scanWord? "not".toList cs = none)
    (finds : Finds (GoodUnit rest) (operand m cs).matched?) :
    Finds (GoodExpr target) (unary m cs).matched? := by
  rw [matched?_unary, noNot]
  exact finds_comparison continues finds

/-- Nothing but a negation begins with `not`. -/
theorem matched?_operand_not
    (cs : List Char) :
    (operand m ("not ".toList ++ cs)).matched? = none := by
  have noName : scanName? ("not".toList ++ ' ' :: cs) = none :=
    scanName?_of_reserved (isNameChar_of_mem_reservedWords (by decide)) (by decide)
      (Text.stops_cons.mpr rfl)
  have noLiteral : (literal ("not".toList ++ ' ' :: cs)).matched? = none :=
    matched?_literal_of_none rfl rfl rfl rfl
  have noParameter : (parameter ("not".toList ++ ' ' :: cs)).matched? = none :=
    matched?_parameter_of_noSign (Text.stops_cons.mpr rfl)
  have noParenthesis : (parenthesised m ("not".toList ++ ' ' :: cs)).matched? = none :=
    matched?_parenthesised_of_noOpen (Text.stops_cons.mpr rfl)
  show (operand m ("not".toList ++ ' ' :: cs)).matched? = none
  rw [matched?_operand, matched?_call_of_noName noName, matched?_member_of_noName noName,
    noLiteral, noParameter, noParenthesis, noName]
  rfl

/-- A negation finds good expressions behind the word `not`. -/
theorem finds_negated
    (opens : Opens text)
    (finds : Finds (GoodExpr target) (unary m text).matched?) :
    Finds (GoodExpr target) (unary m ("not ".toList ++ text)).matched? := by
  have isNot : scanWord? "not".toList ("not ".toList ++ text) = some ((), ' ' :: text) := rfl
  have noComparison : (comparison m ("not ".toList ++ text)).matched? = none := by
    rw [matched?_comparison, matched?_operand_not, Option.bind_none]
  rw [matched?_unary, isNot, Option.bind_some, skipLayout_blank opens, noComparison, Option.or_none]
  intro reading left matched
  obtain ⟨⟨inner, last⟩, isInner, shape⟩ := Option.map_eq_some_iff.mp matched
  cases shape
  obtain ⟨e, rfl, unambiguous, ends⟩ := finds inner last isInner
  exact ⟨.not e, rfl, Expr.everywhere_not.mpr ⟨trivial, unambiguous⟩, ends⟩

end Comparisons

section Units

variable {bound : Nat}

/-- What an expression is that stands alone is read of it, at the level of nested expressions. -/
theorem FindsAt.nested
    {goodAt : List Char → Expr → List Char → Prop}
    (findsAt : FindsAt disjunction EndsExpr goodAt text)
    (nests : Nests bound m)
    (ends : EndsExpr rest)
    (short : (text ++ rest).length < bound) :
    Finds (goodAt rest) (m (text ++ rest)).matched? := by
  obtain ⟨depth, deep, same⟩ := nests (text ++ rest) short
  rw [same, exprWithin, matched?_rule]
  exact findsAt (nests_exprWithin depth) rest ends (by omega)

/-- What is read in parentheses ends in front of the closing one. -/
theorem finds_parenthesised
    {middle : List Char}
    (opens : Opens text)
    (notClosed : Text.Stops (· == ')') (skipLayout .between middle))
    (finds : Finds (GoodPair middle (')' :: rest)) (m (text ++ ')' :: rest)).matched?) :
    Finds (GoodUnit rest) (operand m ('(' :: (text ++ ')' :: rest))).matched? := by
  have noName : scanName? ('(' :: (text ++ ')' :: rest)) = none := scanName?_of_head rfl
  rw [matched?_operand, matched?_call_of_noName noName, matched?_member_of_noName noName,
    matched?_literal_of_sign (by decide) rfl (by decide) (by decide) (by decide),
    matched?_parameter_of_noSign (by simp), noName]
  refine Finds.nothing.or (Finds.nothing.or (Finds.nothing.or (Finds.nothing.or (.or ?_ .nothing))))
  intro reading left matched
  rw [parenthesised, matched?_spaced_bind, matched?_sign_self, Option.bind_some,
    skipLayout_of_bare (opens.append _).bare, matched?_spaced_bind] at matched
  obtain ⟨⟨inner, last⟩, isInner, matched⟩ := Option.bind_eq_some_iff.mp matched
  obtain ⟨e, rfl, unambiguous, ends⟩ := finds inner last isInner
  have open_of_stops : Text.Stops (· == ')') (skipLayout .between last) → False := by
    intro stops
    rw [matched?_bind_of_none (matched?_sign_of_stops stops)] at matched
    cases matched
  obtain ⟨isOperand, rfl⟩ | rfl | stuck := ends
  · rw [skipLayout_sign rfl (by decide) (by decide), matched?_bind_of_some (matched?_sign_self ')'),
      matched?_pure] at matched
    cases matched
    exact ⟨e, rfl, isOperand, unambiguous, .inl rfl⟩
  · exact (open_of_stops notClosed).elim
  · exact (open_of_stops (stuck.stops (.inl rfl))).elim

section Arguments

variable {texts : List (List Char)} {readings : List (Reading Expr)}

/-- Whether all of some readings are unambiguous expressions. -/
def AllGood
    (readings : List (Reading Expr)) :
    Prop :=
  ∃ es : List Expr, readings = es.map .ok ∧ ∀ e ∈ es, e.Unambiguous

theorem AllGood.cons
    (unambiguous : e.Unambiguous)
    (others : AllGood readings) :
    AllGood (.ok e :: readings) := by
  obtain ⟨es, rfl, all⟩ := others
  exact ⟨e :: es, rfl, List.forall_mem_cons.mpr ⟨unambiguous, all⟩⟩

/-- An argument is read alone, and behind a comma. -/
structure Argument
    (m : Matcher (Reading Expr))
    (bound : Nat)
    (text : List Char) :
    Prop where
  opens : Opens text
  notClosed : ∀ rest, Text.Stops (· == ')') (text ++ rest)
  finds : ∀ rest, EndsExpr rest → (text ++ rest).length < bound →
    Finds (GoodExpr rest) (m (text ++ rest)).matched?

/-- What arguments leave where they are not followed by one that is read. -/
def ClosesOnlyAt
    (rest left : List Char) :
    Prop :=
  left = ')' :: rest ∨ Text.Stops (· == ')') (skipLayout .between left)

/-- An argument ends in front of the next one. -/
theorem endsExpr_behindComma
    (texts : List (List Char)) :
    EndsExpr ((texts.map behindComma).flatten ++ ')' :: rest) := by
  cases texts with
  | nil => exact endsExpr_sign (.inl rfl)
  | cons text texts => exact endsExpr_sign (.inr rfl)

theorem matched?_behindComma_of_stops
    (stops : Text.Stops (· == ',') (skipLayout .between cs)) :
    ((do layout; sign ','; layout; m : Matcher (Reading Expr)) cs).matched? = none := by
  rw [matched?_bind_of_some matched?_layout, matched?_bind_of_none (matched?_sign_of_stops stops)]

theorem matched?_behindComma
    (opens : Opens text) :
    ((do layout; sign ','; layout; m : Matcher (Reading Expr)) (',' :: ' ' :: text)).matched? =
      (m text).matched? := by
  rw [matched?_bind_of_some matched?_layout, skipLayout_sign rfl (by decide) (by decide),
    matched?_bind_of_some (matched?_sign_self ','), matched?_bind_of_some matched?_layout,
    skipLayout_blank opens]

/-- Arguments are read one by one, and their list is not closed before all are read. -/
theorem finds_upTo
    (each : ∀ text ∈ texts, Argument m bound text)
    (short : ((texts.map behindComma).flatten ++ ')' :: rest).length < bound)
    {count : Nat}
    {left : List Char}
    (matched : ((do layout; sign ','; layout; m : Matcher (Reading Expr)).upTo count
      ((texts.map behindComma).flatten ++ ')' :: rest)).matched? = some (readings, left)) :
    AllGood readings ∧ ClosesOnlyAt rest left := by
  induction texts generalizing readings count left with
  | nil =>
      obtain ⟨rfl, rfl⟩ | ⟨value, _, _, _, isNext, -⟩ := upTo_cases matched
      · exact ⟨⟨[], rfl, by simp⟩, .inl rfl⟩
      · rw [List.map_nil, List.flatten_nil, List.nil_append,
          matched?_behindComma_of_stops (Text.stops_cons.mpr rfl)] at isNext
        cases isNext
  | cons text texts inductionHypothesis =>
      obtain ⟨argument, others⟩ := List.forall_mem_cons.mp each
      rw [List.map_cons, List.flatten_cons, List.append_assoc] at matched short
      obtain ⟨rfl, rfl⟩ | ⟨value, between, more, fewer, isNext, isMore, rfl⟩ := upTo_cases matched
      · exact ⟨⟨[], rfl, by simp⟩, .inr (Text.stops_cons.mpr rfl)⟩
      · rw [behindComma, List.cons_append, List.cons_append] at isNext short
        have shorter :
            (text ++ ((texts.map behindComma).flatten ++ ')' :: rest)).length < bound := by
          simp only [List.length_cons] at short
          omega
        rw [matched?_behindComma (argument.opens.append _)] at isNext
        obtain ⟨e, rfl, unambiguous, ends⟩ :=
          argument.finds _ (endsExpr_behindComma texts) shorter value between isNext
        obtain rfl | stuck := ends
        · have shortMore : ((texts.map behindComma).flatten ++ ')' :: rest).length < bound := by
            rw [List.length_append] at shorter
            omega
          obtain ⟨all, closes⟩ := inductionHypothesis others shortMore isMore
          exact ⟨all.cons unambiguous, closes⟩
        · obtain ⟨rfl, rfl⟩ | ⟨_, _, _, _, isThird, -⟩ := upTo_cases isMore
          · exact ⟨.cons unambiguous ⟨[], rfl, by simp⟩, .inr (stuck.stops (.inl rfl))⟩
          · rw [matched?_behindComma_of_stops (stuck.stops (.inr rfl))] at isThird
            cases isThird

/-- The arguments of a call are all read, or their list is not closed. -/
theorem finds_separated
    (each : ∀ text ∈ texts, Argument m bound text)
    (someText : texts ≠ [])
    (short : (Expr.commaText texts ++ ')' :: rest).length < bound)
    {left : List Char}
    (matched : (separated m (Expr.commaText texts ++ ')' :: rest)).matched? =
      some (readings, left)) :
    AllGood readings ∧ ClosesOnlyAt rest left := by
  obtain ⟨text, texts, rfl⟩ := List.exists_cons_of_ne_nil someText
  obtain ⟨argument, others⟩ := List.forall_mem_cons.mp each
  rw [commaText_cons, List.append_assoc] at matched short
  rw [separated, matched?_bind] at matched
  obtain ⟨⟨first, between⟩, isFirst, matched⟩ := Option.bind_eq_some_iff.mp matched
  obtain ⟨e, rfl, unambiguous, ends⟩ :=
    argument.finds _ (endsExpr_behindComma texts) short first between isFirst
  rw [matched?_bind] at matched
  obtain ⟨⟨more, last⟩, isMore, matched⟩ := Option.bind_eq_some_iff.mp matched
  cases matched
  obtain rfl | stuck := ends
  · have shorter : ((texts.map behindComma).flatten ++ ')' :: rest).length < bound := by
      rw [List.length_append] at short
      omega
    obtain ⟨all, closes⟩ := finds_upTo others shorter isMore
    exact ⟨all.cons unambiguous, closes⟩
  · obtain ⟨rfl, rfl⟩ | ⟨_, _, _, _, isThird, -⟩ := upTo_cases isMore
    · exact ⟨.cons unambiguous ⟨[], rfl, by simp⟩, .inr (stuck.stops (.inl rfl))⟩
    · rw [matched?_behindComma_of_stops (stuck.stops (.inr rfl))] at isThird
      cases isThird

/-- Without arguments nothing is read; arguments that are there are not closed unread. -/
theorem finds_args
    (nests : Nests bound m)
    (each : ∀ text ∈ texts, Argument m bound text)
    (short : (Expr.commaText texts ++ ')' :: rest).length < bound)
    {left : List Char}
    {args : Option (List (Reading Expr))}
    (matched : (optional (separated m)
      (skipLayout .between (Expr.commaText texts ++ ')' :: rest))).matched? = some (args, left)) :
    AllGood (args.getD []) ∧ ClosesOnlyAt rest left := by
  rw [matched?_optional] at matched
  cases texts with
  | nil =>
      have skipped : skipLayout .between (Expr.commaText [] ++ ')' :: rest) = ')' :: rest :=
        skipLayout_sign rfl (by decide) (by decide)
      have noArgs : (separated m (')' :: rest)).matched? = none := by
        rw [separated, matched?_bind_of_none (matched?_closeParen_of_nests nests short)]
      rw [skipped, noArgs] at matched
      cases matched
      exact ⟨⟨[], rfl, by simp⟩, .inl rfl⟩
  | cons text texts =>
      obtain ⟨argument, -⟩ := List.forall_mem_cons.mp each
      have shape : Expr.commaText (text :: texts) ++ ')' :: rest =
          text ++ ((texts.map behindComma).flatten ++ ')' :: rest) := by
        rw [commaText_cons, List.append_assoc]
      have skipped : skipLayout .between (Expr.commaText (text :: texts) ++ ')' :: rest) =
          Expr.commaText (text :: texts) ++ ')' :: rest := by
        rw [shape, skipLayout_of_bare (argument.opens.append _).bare]
      rw [skipped] at matched
      generalize isRead : (Grammar.separated m
        (Expr.commaText (text :: texts) ++ ')' :: rest)).matched? = separated? at matched
      cases separated? with
      | none =>
          cases matched
          refine ⟨⟨[], rfl, by simp⟩, .inr ?_⟩
          rw [skipped, shape]
          exact argument.notClosed _
      | some found =>
          cases matched
          exact finds_separated each (by simp) short isRead

/-- A call is read with all its arguments, or its name is. -/
theorem finds_call
    {function : String}
    (nests : Nests bound m)
    (proper : IsName function)
    (each : ∀ text ∈ texts, Argument m bound text)
    (short : (function.toList ++ '(' :: (Expr.commaText texts ++ ')' :: rest)).length < bound + 1) :
    Finds (GoodUnit rest)
      (operand m (function.toList ++ '(' :: (Expr.commaText texts ++ ')' :: rest))).matched? := by
  have named : scanName? (function.toList ++ '(' :: (Expr.commaText texts ++ ')' :: rest)) =
      some (function, '(' :: (Expr.commaText texts ++ ')' :: rest)) :=
    proper.scanName? (by simp [isNameChar])
  have noMember := matched?_member_of_noPoint named (Text.stops_cons.mpr rfl)
  rw [matched?_operand, noMember, matched?_literal_of_name proper (by simp [isNameChar]),
    matched?_parameter_of_noSign (proper.stops rfl),
    matched?_parenthesised_of_noOpen (proper.stops rfl), named]
  refine Finds.or ?_ (Finds.found ⟨rfl, Expr.everywhere_item.mpr trivial, .inr ⟨_, rfl⟩⟩)
  intro reading left matched
  have shorter : (Expr.commaText texts ++ ')' :: rest).length < bound := by
    simp only [List.length_append, List.length_cons] at short ⊢
    omega
  rw [call, matched?_rule, matched?_spaced_bind, Grammar.name, matched?_token, named,
    Option.bind_some, skipLayout_sign rfl (by decide) (by decide), matched?_spaced_bind,
    matched?_sign_self, Option.bind_some, matched?_spaced_bind] at matched
  obtain ⟨⟨args, last⟩, isArgs, matched⟩ := Option.bind_eq_some_iff.mp matched
  obtain ⟨all, closes⟩ := finds_args nests each shorter isArgs
  obtain rfl | stops := closes
  · rw [skipLayout_sign rfl (by decide) (by decide), matched?_bind_of_some (matched?_sign_self ')'),
      matched?_pure] at matched
    obtain ⟨es, shape, unambiguous⟩ := all
    rw [shape, collect_ok] at matched
    cases matched
    exact ⟨_, rfl, rfl, Expr.everywhere_call.mpr ⟨trivial, unambiguous⟩, .inl rfl⟩
  · rw [matched?_bind_of_none (matched?_sign_of_stops stops)] at matched
    cases matched

end Arguments

end Units

section Shown

/-- No display text begins with a closing parenthesis. -/
theorem stops_shown
    (named : e.Named)
    (noReals : e.NoReals)
    (rest : List Char) :
    Text.Stops (· == ')') (e.shown ++ rest) := by
  induction e generalizing rest with
  | item name => exact (Expr.everywhere_item.mp named).stops rfl
  | member item property =>
      rw [Expr.shown_member, List.append_assoc]
      exact (Expr.everywhere_member.mp named).1.stops rfl
  | literal value =>
      cases value with
      | null => exact Text.stops_cons.mpr rfl
      | integer n =>
          have proper := isDigits_digits n.toInt.natAbs
          rw [Expr.shown_integer, toList_ofInt]
          cases decide (n.toInt < 0) with
          | true => exact Text.stops_cons.mpr rfl
          | false =>
              obtain ⟨first, others, shape⟩ := List.exists_cons_of_ne_nil proper.some
              have digit := proper.all first (by simp [shape])
              rw [shape]
              exact Text.stops_cons.mpr (by simpa using ne_of_kind digit rfl)
      | real x => exact absurd rfl (Expr.everywhere_literal.mp noReals x)
      | text s =>
          rw [Expr.shown_text]
          exact Text.stops_cons.mpr rfl
  | parameter name =>
      rw [Expr.shown_parameter]
      exact Text.stops_cons.mpr rfl
  | compare left op right leftStops =>
      rw [Expr.shown_compare, List.append_assoc]
      exact leftStops (Expr.everywhere_compare.mp named).2.1
        (Expr.everywhere_compare.mp noReals).2.1 _
  | and =>
      rw [Expr.shown_and]
      exact Text.stops_cons.mpr rfl
  | or =>
      rw [Expr.shown_or]
      exact Text.stops_cons.mpr rfl
  | not =>
      rw [Expr.shown_not]
      exact Text.stops_cons.mpr rfl
  | call function args =>
      rw [Expr.shown_call, List.append_assoc]
      exact (Expr.everywhere_call.mp named).1.1.stops rfl

/-- All that is read of a display text is good, as an operand and as an expression. -/
structure ShownFinds
    (e : Expr) :
    Prop where
  operand : FindsAt operand EndsOperand GoodOperand e.shown
  unary : ∀ ⦃bound : Nat⦄ ⦃m : Matcher (Reading Expr)⦄, Nests bound m →
    ∀ target rest, Continues m target rest → (e.shown ++ rest).length < bound + 1 →
      Finds (GoodExpr target) (unary m (e.shown ++ rest)).matched?

/-- It is enough that an operand finds good units in the display text. -/
theorem ShownFinds.ofUnit
    (named : e.Named)
    (noReals : e.NoReals)
    (isOperand : e.isOperand = true)
    (finds : FindsAt Grammar.operand EndsOperand GoodUnit e.shown) :
    ShownFinds e where
  operand := fun _ _ nests rest ends short =>
    (finds nests rest ends short).mono fun _ _ => GoodUnit.operand
  unary := fun _ _ nests _ rest continues short =>
    finds_unary continues (noNot_shown named noReals isOperand rest continues.ends)
      (finds nests rest continues.ends short)

namespace ShownFinds

/-- All that a conjunction reads of a display text is good. -/
theorem conjunction
    (finds : ShownFinds e) :
    FindsAt Grammar.conjunction EndsConjunction GoodExpr e.shown := by
  intro bound m nests rest ends short
  have found := finds.unary nests rest rest (continues_of_ends ends.toEndsComparison) short
  refine found.keywordChain ?_
  rintro _ _ ⟨-, rfl | stuck⟩
  · exact ends.noAnd
  · exact stuck.noWord (.inl rfl)

/-- All that a disjunction reads of a display text is good. -/
theorem disjunction
    (finds : ShownFinds e) :
    FindsAt Grammar.disjunction EndsExpr GoodExpr e.shown := by
  intro bound m nests rest ends short
  refine (finds.conjunction nests rest ends.toEndsConjunction short).keywordChain ?_
  rintro _ _ ⟨-, rfl | stuck⟩
  · exact ends.noOr
  · exact stuck.noWord (.inr rfl)

/-- An operand that is read back is all that is read. -/
theorem ofUnambiguous
    (named : e.Named)
    (noReals : e.NoReals)
    (unambiguous : e.Unambiguous)
    (isOperand : e.isOperand = true) :
    ShownFinds e := by
  refine .ofUnit named noReals isOperand fun bound m nests rest ends short => ?_
  have back := shownBack_of_unambiguous named noReals unambiguous
  rw [back.operand isOperand nests rest ends short]
  exact .found ⟨isOperand, unambiguous, .inl rfl⟩

/-- All that is read of a comparison is good if all of its operands is. -/
theorem compare
    (op : Comparison)
    (leftFinds : ShownFinds left)
    (rightFinds : ShownFinds right)
    (rightOpens : Opens right.shown) :
    ShownFinds (.compare left op right) := by
  have shape : ∀ rest, (Expr.compare left op right).shown ++ rest =
      left.shown ++ ' ' :: (op.symbol.toList ++ ' ' :: (right.shown ++ rest)) := by
    simp
  constructor
  · intro bound m nests rest ends short
    rw [shape] at short ⊢
    refine (leftFinds.operand nests _ (endsOperand_symbol op) short).mono ?_
    rintro e left ⟨isOperand, unambiguous, rfl | stuck⟩
    · exact ⟨isOperand, unambiguous, .inr .operator⟩
    · exact ⟨isOperand, unambiguous, .inr stuck⟩
  · intro bound m nests target rest continues short
    rw [shape] at short ⊢
    have shorter : (right.shown ++ rest).length < bound + 1 := by
      simp only [List.length_append, List.length_cons] at short ⊢
      omega
    exact leftFinds.unary nests target _
      (continues_symbol op continues rightOpens
        (rightFinds.operand nests rest continues.ends shorter))
      short

/-- All that is read of a negation is good if all of its operand is. -/
theorem not
    (finds : ShownFinds e)
    (opens : Opens e.shown) :
    ShownFinds (.not e) := by
  constructor
  · intro bound m nests rest ends short
    rw [Expr.shown_not, List.append_assoc, matched?_operand_not]
    exact .nothing
  · intro bound m nests target rest continues short
    rw [Expr.shown_not, List.append_assoc] at short ⊢
    have shorter : (e.shown ++ rest).length < bound + 1 := by
      rw [List.length_append] at short
      omega
    exact finds_negated (opens.append rest) (finds.unary nests target rest continues shorter)

/-- What is read of two parts with `and` between them is their conjunction, if it is all. -/
theorem andInside
    (leftFinds : ShownFinds left)
    (rightFinds : ShownFinds right)
    (rightOpens : Opens right.shown) :
    FindsAt Grammar.disjunction EndsExpr
      (fun rest => GoodPair (behindWord "and" (right.shown ++ rest)) rest)
      (left.shown ++ behindWord "and" right.shown) := by
  intro bound m nests rest ends short
  have shape : left.shown ++ behindWord "and" right.shown ++ rest =
      left.shown ++ behindWord "and" (right.shown ++ rest) := by
    simp [behindWord]
  rw [shape] at short ⊢
  have shorter : (right.shown ++ rest).length < bound + 1 := by
    simp only [behindWord, List.length_append, List.length_cons] at short ⊢
    omega
  have endsLeft : EndsComparison (behindWord "and" (right.shown ++ rest)) := endsComparison_and
  have leftFound := leftFinds.unary nests _ _ (continues_of_ends endsLeft) short
  have rightFound :=
    rightFinds.unary nests rest rest (continues_of_ends ends.toEndsComparison) shorter
  refine (finds_keywordPair leftFound rightFound (rightOpens.append rest) (.inl rfl) ends.noAnd
    fun l r lGood rGood => ⟨Expr.everywhere_and.mpr ⟨trivial, lGood, rGood⟩, rfl⟩).keywordChain ?_
  rintro _ _ ⟨-, ⟨-, rfl⟩ | rfl | stuck⟩
  · exact ends.noOr
  · rfl
  · exact stuck.noWord (.inr rfl)

/-- What is read of two parts with `or` between them is their disjunction, if it is all. -/
theorem orInside
    (leftFinds : ShownFinds left)
    (rightFinds : ShownFinds right)
    (rightOpens : Opens right.shown) :
    FindsAt Grammar.disjunction EndsExpr
      (fun rest => GoodPair (behindWord "or" (right.shown ++ rest)) rest)
      (left.shown ++ behindWord "or" right.shown) := by
  intro bound m nests rest ends short
  have shape : left.shown ++ behindWord "or" right.shown ++ rest =
      left.shown ++ behindWord "or" (right.shown ++ rest) := by
    simp [behindWord]
  rw [shape] at short ⊢
  have shorter : (right.shown ++ rest).length < bound + 1 := by
    simp only [behindWord, List.length_append, List.length_cons] at short ⊢
    omega
  have endsLeft : EndsConjunction (behindWord "or" (right.shown ++ rest)) := endsConjunction_or
  have leftFound := leftFinds.conjunction nests _ endsLeft short
  have rightFound := rightFinds.conjunction nests rest ends.toEndsConjunction shorter
  exact finds_keywordPair leftFound rightFound (rightOpens.append rest) (.inr rfl) ends.noOr
    fun l r lGood rGood => ⟨Expr.everywhere_or.mpr ⟨trivial, lGood, rGood⟩, rfl⟩

/-- Parentheses are read as a whole, or not at all. -/
theorem ofInside
    {word : String}
    {whole : Expr}
    (named : whole.Named)
    (noReals : whole.NoReals)
    (isOperand : whole.isOperand = true)
    (shape : whole.shown = '(' :: ((left.shown ++ behindWord word right.shown) ++ [')']))
    (chains : word = "and" ∨ word = "or")
    (leftOpens : Opens left.shown)
    (inside : FindsAt Grammar.disjunction EndsExpr
      (fun rest => GoodPair (behindWord word (right.shown ++ rest)) rest)
      (left.shown ++ behindWord word right.shown)) :
    ShownFinds whole := by
  refine .ofUnit named noReals isOperand fun bound m nests rest ends short => ?_
  rw [shape, List.cons_append, List.append_assoc, List.singleton_append] at short ⊢
  have notClosed : Text.Stops (· == ')')
      (skipLayout .between (behindWord word (right.shown ++ ')' :: rest))) := by
    rcases chains with rfl | rfl <;> exact Text.stops_cons.mpr rfl
  exact finds_parenthesised (leftOpens.append _) notClosed
    (inside.nested nests (endsExpr_sign (.inl rfl)) (by simpa using short))

/-- All that is read of a call is good if all of its arguments is. -/
theorem ofArgs
    {function : String}
    {args : List Expr}
    (named : (Expr.call function args).Named)
    (noReals : (Expr.call function args).NoReals)
    (argsFind : ∀ arg ∈ args, ShownFinds arg) :
    ShownFinds (.call function args) := by
  refine .ofUnit named noReals rfl fun bound m nests rest ends short => ?_
  obtain ⟨⟨proper, -⟩, argsNamed⟩ := Expr.everywhere_call.mp named
  have argsNoReals := (Expr.everywhere_call.mp noReals).2
  rw [Expr.shown_call, List.append_assoc, List.cons_append, List.append_assoc,
    List.singleton_append] at short ⊢
  refine finds_call nests proper (List.forall_mem_map.mpr fun arg member => ?_) short
  have argNamed := argsNamed arg member
  have argNoReals := argsNoReals arg member
  exact {
    opens := opens_shown argNamed argNoReals
    notClosed := stops_shown argNamed argNoReals
    finds := fun rest ends short => (argsFind arg member).disjunction.nested nests ends short }

end ShownFinds

/-- Whatever is read of a display text is unambiguous. -/
theorem shownFinds
    (named : e.Named)
    (noReals : e.NoReals) :
    ShownFinds e := by
  induction e with
  | item => exact .ofUnambiguous named noReals (Expr.everywhere_item.mpr trivial) rfl
  | member => exact .ofUnambiguous named noReals (Expr.everywhere_member.mpr trivial) rfl
  | literal => exact .ofUnambiguous named noReals (Expr.everywhere_literal.mpr trivial) rfl
  | parameter => exact .ofUnambiguous named noReals (Expr.everywhere_parameter.mpr trivial) rfl
  | compare left op right leftFinds rightFinds =>
      obtain ⟨-, leftNamed, rightNamed⟩ := Expr.everywhere_compare.mp named
      obtain ⟨-, leftNoReals, rightNoReals⟩ := Expr.everywhere_compare.mp noReals
      exact (leftFinds leftNamed leftNoReals).compare op (rightFinds rightNamed rightNoReals)
        (opens_shown rightNamed rightNoReals)
  | and left right leftFinds rightFinds =>
      obtain ⟨-, leftNamed, rightNamed⟩ := Expr.everywhere_and.mp named
      obtain ⟨-, leftNoReals, rightNoReals⟩ := Expr.everywhere_and.mp noReals
      exact .ofInside named noReals rfl Expr.shown_and (.inl rfl)
        (opens_shown leftNamed leftNoReals)
        ((leftFinds leftNamed leftNoReals).andInside (rightFinds rightNamed rightNoReals)
          (opens_shown rightNamed rightNoReals))
  | or left right leftFinds rightFinds =>
      obtain ⟨-, leftNamed, rightNamed⟩ := Expr.everywhere_or.mp named
      obtain ⟨-, leftNoReals, rightNoReals⟩ := Expr.everywhere_or.mp noReals
      exact .ofInside named noReals rfl Expr.shown_or (.inr rfl) (opens_shown leftNamed leftNoReals)
        ((leftFinds leftNamed leftNoReals).orInside (rightFinds rightNamed rightNoReals)
          (opens_shown rightNamed rightNoReals))
  | not operand operandFinds =>
      have operandNamed := (Expr.everywhere_not.mp named).2
      have operandNoReals := (Expr.everywhere_not.mp noReals).2
      exact (operandFinds operandNamed operandNoReals).not (opens_shown operandNamed operandNoReals)
  | call function args argsFind =>
      have argsNamed := (Expr.everywhere_call.mp named).2
      have argsNoReals := (Expr.everywhere_call.mp noReals).2
      exact .ofArgs named noReals fun arg member =>
        argsFind arg member (argsNamed arg member) (argsNoReals arg member)

theorem endsExpr_nil :
    EndsExpr [] :=
  ⟨⟨⟨⟨Text.stops_nil, Text.stops_nil⟩, rfl⟩, rfl⟩, rfl⟩

/-- An expression without ambiguity is read back from its display. -/
theorem parse_of_unambiguous
    (named : e.Named)
    (noReals : e.NoReals)
    (unambiguous : e.Unambiguous) :
    Expr.parse e.display = .ok e := by
  have opens := opens_shown named noReals
  have reads := (shownBack_of_unambiguous named noReals unambiguous).unary.conjunction.disjunction
  have matched := reads.nested (nests_expr _) [] endsExpr_nil (Nat.lt_succ_self _)
  rw [List.append_nil] at matched
  have isExpr : (expr (skipLayout .between e.display.toList)).matched? = some (.ok e, []) := by
    change (expr (skipLayout .between e.shown)).matched? = _
    rw [skipLayout_of_bare opens.bare, matched]
  exact Syntax.parse_of_expr isExpr rfl

/-- What is read from the display of an expression is without ambiguity. -/
theorem unambiguous_of_parse
    {other : Expr}
    (named : e.Named)
    (noReals : e.NoReals)
    (parsed : Expr.parse e.display = .ok other) :
    other.Unambiguous := by
  have opens := opens_shown named noReals
  obtain ⟨left, matched⟩ := Syntax.exists_expr_of_parse parsed
  change (expr (skipLayout .between e.shown)).matched? = _ at matched
  rw [skipLayout_of_bare opens.bare, ← List.append_nil e.shown] at matched
  have finds := (shownFinds named noReals).disjunction.nested (nests_expr _) endsExpr_nil
    (Nat.lt_succ_self _)
  obtain ⟨found, same, unambiguous, -⟩ := finds _ _ matched
  cases same
  exact unambiguous

end Shown

/-- A search call is read back whatever phrase it has. -/
theorem parse_searchFunction
    {item : String}
    {phrase : Expr}
    (proper : IsName item)
    (named : phrase.Named)
    (noReals : phrase.NoReals)
    (plain : phrase.IsPlain) :
    Expr.parse (Expr.call Expr.searchFunction [.item item, phrase]).display =
      .ok (.call Expr.searchFunction [.item item, phrase]) := by
  have isFunction : Expr.HasNames (.call Expr.searchFunction [.item item, phrase]) := by
    constructor <;> decide
  have both : ∀ {good : Expr → Prop}, good (.item item) → good phrase →
      ∀ arg ∈ [.item item, phrase], good arg := fun first second =>
    List.forall_mem_cons.mpr ⟨first, List.forall_mem_singleton.mpr second⟩
  refine parse_of_unambiguous (Expr.everywhere_call.mpr ⟨isFunction, ?_⟩)
    (Expr.everywhere_call.mpr ⟨by simp, ?_⟩) (Expr.everywhere_call.mpr ⟨trivial, ?_⟩)
  · exact both (Expr.everywhere_item.mpr proper) named
  · exact both (Expr.everywhere_item.mpr (by simp)) noReals
  · exact both (Expr.everywhere_item.mpr trivial) plain.unambiguous

/--
An expression is read back from its display text exactly if it is unambiguous: no
comparison in it has a comparison or a negation as an operand.  In particular every
search call is read back, whatever it looks for, and so are all conjunctions, disjunctions
and negations of plain comparisons and calls.
-/
theorem parse_display_iff :
    (∀ e : Expr, e.Named → e.NoReals → (Expr.parse e.display = .ok e ↔ e.Unambiguous)) ∧
      (∀ e : Expr, e.Named → e.NoReals → e.IsCombination → Expr.parse e.display = .ok e) ∧
        ∀ item : String, IsName item →
          (∀ text, Expr.parse (Expr.search item text).display = .ok (Expr.search item text)) ∧
            ∀ parameter : String, IsName parameter →
              Expr.parse (Expr.searchParameter item parameter).display =
                .ok (Expr.searchParameter item parameter) := by
  refine ⟨fun e named noReals => ⟨unambiguous_of_parse named noReals,
    parse_of_unambiguous named noReals⟩, fun e named noReals isCombination =>
      parse_of_unambiguous named noReals isCombination.unambiguous, fun item proper =>
        ⟨fun text => ?_, fun parameter parameterProper => ?_⟩⟩
  · exact parse_searchFunction proper (Expr.everywhere_literal.mpr trivial)
      (Expr.everywhere_literal.mpr (by simp)) (Expr.everywhere_literal.mpr rfl)
  · exact parse_searchFunction proper (Expr.everywhere_parameter.mpr parameterProper)
      (Expr.everywhere_parameter.mpr (by simp)) (Expr.everywhere_parameter.mpr rfl)

/-- A search for quotes and comment signs in a combination, and a negation that is compared. -/
theorem parse_display_quoted :
    let combined := Expr.not (.and (.search "c" "\"--'\n/*")
      (.compare (.call "upper" [.member "c" "Name"]) .like (.parameter "p")))
    let compared := Expr.compare (.not (.item "c")) .eq (.literal (.integer (-1)))
    combined.Named ∧ combined.NoReals ∧ combined.IsCombination ∧
      Expr.parse combined.display = .ok combined ∧
        compared.Named ∧ compared.NoReals ∧ Expr.parse compared.display ≠ .ok compared := by
  intro combined compared
  have names : ∀ name ∈ ["c", "Name", "p", "search", "upper"], IsName name := by decide
  have named : combined.Named := by
    simp [combined, Expr.Named, Expr.HasNames, Expr.search, Expr.searchFunction, names]
  have noReals : combined.NoReals := by
    simp [combined, Expr.NoReals, Expr.search]
  have combination : combined.IsCombination := by
    refine .not (.and (.plain ?_) (.compare ?_ ?_)) <;>
      simp [Expr.IsPlain, Expr.isAtomic, Expr.search]
  have comparedNamed : compared.Named := by
    simp [compared, Expr.Named, Expr.HasNames, names]
  have comparedNoReals : compared.NoReals := by
    simp [compared, Expr.NoReals]
  refine ⟨named, noReals, combination, parse_display_iff.2.1 _ named noReals combination,
    comparedNamed, comparedNoReals, fun parsed => ?_⟩
  have unambiguous := (parse_display_iff.1 _ comparedNamed comparedNoReals).mp parsed
  exact absurd (Expr.everywhere_compare.mp unambiguous).1.1 (by decide)

end FullTextQuery.Query
