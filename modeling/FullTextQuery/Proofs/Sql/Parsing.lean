import FullTextQuery.Proofs.Sql.Grouping

namespace FullTextQuery

/-!
# Reading the tokens of expressions

The reader turns the tokens of an expression into the term that they group to,
whatever follows the expression.  The induction is on the expression; what it
carries is that the core is read as one operand, since the membership tests
behind a core are taken by whoever extends the operand.
-/

namespace Sql.Reader

/-- Whether no opening parenthesis is at the front, which would make a word a call. -/
def NotCall
    (rest : List Token) :
    Prop :=
  ∀ others, rest ≠ .sign .openParen :: others

/-- Whether no operator of a level or a tighter one is at the front. -/
def StopsAt
    (level : Nat)
    (rest : List Token) :
    Prop :=
  ∀ found, infix? rest = some found → found.1.level < level

variable {level : Nat} {left : Term} {rest : List Token}

/-- Where nothing tighter goes on, an expression ends. -/
theorem extend?_of_stops
    [NumeralReading]
    (stops : StopsAt level rest)
    (fuel : Nat)
    (left : Term) :
    extend? fuel level left rest = some (left, rest) := by
  cases fuel with
  | zero => rfl
  | succ fuel =>
      rw [extend?]
      cases found : infix? rest with
      | none => rfl
      | some result =>
          obtain ⟨infixToken, others⟩ := result
          have lower := stops _ found
          simp [lower]

/-- An expression ends in front of a closing parenthesis. -/
theorem stopsAt_closeParen :
    StopsAt level (.sign .closeParen :: rest) := by
  intro found isFound
  cases isFound

/-- An expression ends in front of a comma. -/
theorem stopsAt_comma :
    StopsAt level (.sign .comma :: rest) := by
  intro found isFound
  cases isFound

/-- In front of anything but an opening parenthesis a word is no function. -/
theorem notCall_cons
    {token : Token}
    (other : token ≠ .sign .openParen) :
    NotCall (token :: rest) := by
  rintro others same
  exact other (List.cons.inj same).1

/-- Membership tests are no call of what is before them. -/
theorem notCall_tests
    {valueSets : List String}
    (notCall : NotCall rest) :
    NotCall (valueSets.flatMap arrayTokens ++ rest) := by
  cases valueSets with
  | nil => exact notCall
  | cons valueSet valueSets => exact notCall_cons (by simp)

/-- A membership test stops the right side of a tighter operator. -/
theorem stopsAt_tests
    {valueSets : List String}
    (tight : 3 < level)
    (stops : StopsAt level rest) :
    StopsAt level (valueSets.flatMap arrayTokens ++ rest) := by
  cases valueSets with
  | nil => exact stops
  | cons valueSet valueSets =>
      intro found isFound
      have isTest : infix? ((valueSet :: valueSets).flatMap arrayTokens ++ rest) =
          some (.inArray, .word "rarray" :: .sign .openParen :: .parameter valueSet ::
            .sign .closeParen :: (valueSets.flatMap arrayTokens ++ rest)) := by
        have isKeyword : keyword? (.word "IN") = some "IN" := by decide
        simp [arrayTokens, infix?, isKeyword]
      obtain rfl := Option.some.inj (isTest.symm.trans isFound)
      exact tight

/-- The membership tests behind a term apply to it one after another. -/
theorem extend?_tests
    [NumeralReading]
    (loose : level ≤ 3)
    (fuel : Nat)
    (left : Term)
    (valueSets : List String) :
    extend? (valueSets.length + fuel) level left (valueSets.flatMap arrayTokens ++ rest) =
      extend? fuel level (left.withTests valueSets) rest := by
  induction valueSets generalizing left with
  | nil => simp [Term.withTests]
  | cons valueSet valueSets inductionHypothesis =>
      have isKeyword : keyword? (.word "IN") = some "IN" := by decide
      have isArray : upperName "rarray" = "RARRAY" := by decide
      have enough : (valueSet :: valueSets).length + fuel = valueSets.length + fuel + 1 := by
        rw [List.length_cons]
        omega
      have notTight : ¬ Infix.inArray.level < level := by
        simp only [Infix.level]
        omega
      rw [enough, extend?]
      simp only [List.flatMap_cons, arrayTokens, List.cons_append, List.nil_append, infix?,
        isKeyword, notTight, ↓reduceIte, array?, isArray, Option.bind_eq_bind, Option.bind_some]
      exact inductionHypothesis _

/-- Whether the core of an expression is read as one operand. -/
def ReadsCore
    [NumeralReading]
    (e : RelExpr) :
    Prop :=
  ∀ fuel rest, 2 * e.core.tokens.length ≤ fuel → NotCall rest →
    operand? fuel (e.core.tokens ++ rest) = e.core?.map (·, rest)

section ReadsCore

variable {e left right : RelExpr} {fuel : Nat}

variable [NumeralReading]

/-- An expression is read up to what follows it, which may go on with an operator. -/
theorem ReadsCore.expression?_extend
    (reads : ReadsCore e)
    (loose : level ≤ 3)
    (enough : 2 * e.core.tokens.length ≤ e.tests.length + fuel)
    (notCall : NotCall rest) :
    expression? (e.tests.length + fuel + 1) level (e.tokens ++ rest) =
      e.grouped?.bind fun term => extend? fuel level term rest := by
  rw [expression?, RelExpr.tokens_eq_core, List.append_assoc,
    reads _ _ enough (notCall_tests notCall), RelExpr.grouped?]
  cases e.core? with
  | none => rfl
  | some core => exact extend?_tests loose fuel core e.tests

/-- An expression is read as its grouping where no operator follows it. -/
theorem ReadsCore.expression?_eq
    (reads : ReadsCore e)
    (loose : level ≤ 3)
    (enough : 2 * e.tokens.length < fuel)
    (notCall : NotCall rest)
    (stops : StopsAt level rest) :
    expression? fuel level (e.tokens ++ rest) = e.grouped?.map (·, rest) := by
  have length := e.length_tokens
  obtain ⟨further, rfl⟩ : ∃ further, fuel = e.tests.length + further + 1 :=
    ⟨fuel - e.tests.length - 1, by omega⟩
  rw [reads.expression?_extend loose (by omega) notCall]
  cases e.grouped? with
  | none => rfl
  | some term => exact extend?_of_stops stops further term

/-- The right side of a tight operator is read as the core of the expression only. -/
theorem ReadsCore.expression?_tight
    (reads : ReadsCore e)
    (tight : 3 < level)
    (enough : 2 * e.tokens.length < fuel)
    (notCall : NotCall rest)
    (stops : StopsAt level rest) :
    expression? fuel level (e.tokens ++ rest) =
      e.core?.map (·, e.tests.flatMap arrayTokens ++ rest) := by
  have length := e.length_tokens
  obtain ⟨further, rfl⟩ : ∃ further, fuel = further + 1 := ⟨fuel - 1, by omega⟩
  rw [expression?, RelExpr.tokens_eq_core, List.append_assoc,
    reads _ _ (by omega) (notCall_tests notCall)]
  cases e.core? with
  | none => rfl
  | some core => exact extend?_of_stops (stopsAt_tests tight stops) further core

/-- What is read up to a closing parenthesis is an operand in parentheses. -/
theorem operand?_parenthesised
    {inner : List Token}
    {term? : Option Term}
    (read : expression? fuel loosest (inner ++ .sign .closeParen :: rest) =
      term?.map (·, .sign .closeParen :: rest)) :
    operand? (fuel + 1) (.sign .openParen :: (inner ++ .sign .closeParen :: rest)) =
      term?.map (·, rest) := by
  rw [operand?, read]
  cases term? <;> rfl

/-- Two expressions with a conjunction or disjunction between them are read one after the other. -/
theorem expression?_connective
    (fuel : Nat)
    (rest : List Token)
    {middle : Token}
    {infixToken : Infix}
    (leftReads : ReadsCore left)
    (rightReads : ReadsCore right)
    (isInfix : ∀ others, infix? (middle :: others) = some (infixToken, others))
    (notParen : middle ≠ .sign .openParen)
    (isConnective : infixToken = .and ∨ infixToken = .or)
    (enough : 2 * (left.tokens.length + right.tokens.length) + 3 ≤ fuel) :
    expression? fuel loosest
        (left.tokens ++ middle :: right.tokens ++ .sign .closeParen :: rest) =
      (do
        let leftTerm ← left.grouped?
        let rightTerm ← right.grouped?
        return infixToken.combine leftTerm rightTerm).map (·, .sign .closeParen :: rest) := by
  have length := left.length_tokens
  obtain ⟨further, rfl⟩ : ∃ further, fuel = left.tests.length + (further + 1) + 1 :=
    ⟨fuel - left.tests.length - 2, by omega⟩
  have levels : ¬ infixToken.level < loosest ∧ infixToken.level + 1 ≤ 3 ∧
      infixToken ≠ .inArray := by
    rcases isConnective with rfl | rfl <;> decide
  have rightRead : expression? further (infixToken.level + 1)
      (right.tokens ++ .sign .closeParen :: rest) =
        right.grouped?.map (·, .sign .closeParen :: rest) :=
    rightReads.expression?_eq levels.2.1 (by omega) (notCall_cons (by simp)) stopsAt_closeParen
  rw [List.append_assoc, List.cons_append,
    leftReads.expression?_extend (by decide) (by omega) (notCall_cons notParen)]
  cases left.grouped? with
  | none => rfl
  | some leftTerm =>
      rw [Option.bind_some, extend?, isInfix]
      simp only [levels.1, levels.2.2, ↓reduceIte, rightRead]
      cases right.grouped? with
      | none => rfl
      | some rightTerm => exact extend?_of_stops stopsAt_closeParen further _

/-- A comparison leaves the tests of its right side to the whole comparison. -/
theorem expression?_comparison
    (fuel : Nat)
    (rest : List Token)
    {middle : List Token}
    {op : Operator}
    (leftReads : ReadsCore left)
    (rightReads : ReadsCore right)
    (isInfix : infix? (middle ++ (right.tokens ++ .sign .closeParen :: rest)) =
      some (.compare op, right.tokens ++ .sign .closeParen :: rest))
    (notCall : NotCall (middle ++ (right.tokens ++ .sign .closeParen :: rest)))
    (enough : 2 * (left.tokens.length + right.tokens.length) + 3 ≤ fuel) :
    expression? fuel loosest
        (left.tokens ++ middle ++ right.tokens ++ .sign .closeParen :: rest) =
      (do
        let leftTerm ← left.grouped?
        let rightCore ← right.core?
        return (Term.compare leftTerm op rightCore).withTests right.tests).map
          (·, .sign .closeParen :: rest) := by
  have leftLength := left.length_tokens
  have rightLength := right.length_tokens
  obtain ⟨further, rfl⟩ : ∃ further, fuel = left.tests.length + (further + 1) + 1 :=
    ⟨fuel - left.tests.length - 2, by omega⟩
  have levels : ¬ (Infix.compare op).level < loosest ∧ 3 < (Infix.compare op).level + 1 ∧
      Infix.compare op ≠ .inArray := by
    cases op <;> decide
  have rightRead : expression? further ((Infix.compare op).level + 1)
      (right.tokens ++ .sign .closeParen :: rest) =
        right.core?.map (·, right.tests.flatMap arrayTokens ++ .sign .closeParen :: rest) :=
    rightReads.expression?_tight levels.2.1 (by omega) (notCall_cons (by simp)) stopsAt_closeParen
  rw [List.append_assoc, List.append_assoc,
    leftReads.expression?_extend (by decide) (by omega) notCall]
  cases left.grouped? with
  | none => rfl
  | some leftTerm =>
      rw [Option.bind_some, extend?, isInfix]
      simp only [levels.1, levels.2.2, ↓reduceIte, rightRead]
      cases right.core? with
      | none => rfl
      | some rightCore =>
          obtain ⟨behind, rfl⟩ : ∃ behind, further = right.tests.length + behind :=
            ⟨further - right.tests.length, by omega⟩
          simp only [Option.map_some, Option.bind_eq_bind, Option.bind_some, Infix.combine]
          rw [extend?_tests (by decide), extend?_of_stops stopsAt_closeParen]
          rfl

/-- A negation applies to the expression behind it, also where that is in parentheses. -/
theorem operand?_not
    (tokens : List Token) :
    operand? (fuel + 1) (.word "NOT" :: tokens) =
      (expression? fuel negated tokens).map fun found => (.not found.1, found.2) := by
  have isKeyword : keyword? (.word "NOT") = some "NOT" := by decide
  have isNot : upperName "NOT" = "NOT" := by decide
  by_cases notCall : NotCall tokens
  · rw [operand?]
    · rw [if_pos isNot]
      cases expression? fuel negated tokens <;> rfl
    · exact notCall
  · obtain ⟨others, rfl⟩ := not_forall_not.mp notCall
    rw [operand?, if_neg (by simp [isKeyword]), if_pos isNot]
    cases expression? fuel negated (.sign .openParen :: others) <;> rfl

/-- A word that begins no call and is no negation is an operand by itself. -/
theorem operand?_word
    {word : String}
    (notNegation : upperName word ≠ "NOT")
    (notCall : NotCall rest) :
    operand? (fuel + 1) (.word word :: rest) = simple? (.word word :: rest) := by
  rw [operand?]
  · rw [if_neg notNegation]
  · exact notCall

/-- Each further argument is read behind its comma, up to the closing parenthesis. -/
theorem moreArguments?_furtherTokens
    {args : List RelExpr}
    (each : ∀ arg ∈ args, ReadsCore arg)
    (enough : 2 * (RelExpr.furtherTokens args).length ≤ fuel)
    (before : List Term) :
    moreArguments? fuel before (RelExpr.furtherTokens args ++ .sign .closeParen :: rest) =
      (RelExpr.groupedAll? args).map fun terms => (before ++ terms, rest) := by
  induction args generalizing fuel before with
  | nil =>
      cases fuel <;> simp [RelExpr.furtherTokens, RelExpr.groupedAll?, moreArguments?]
  | cons arg args inductionHypothesis =>
      obtain ⟨argReads, argsRead⟩ := List.forall_mem_cons.mp each
      simp only [RelExpr.furtherTokens, List.length_cons, List.length_append] at enough
      obtain ⟨further, rfl⟩ : ∃ further, fuel = further + 1 := ⟨fuel - 1, by omega⟩
      have behind : NotCall (RelExpr.furtherTokens args ++ .sign .closeParen :: rest) ∧
          StopsAt loosest (RelExpr.furtherTokens args ++ .sign .closeParen :: rest) := by
        cases args with
        | nil => exact ⟨notCall_cons (by simp), stopsAt_closeParen⟩
        | cons => exact ⟨notCall_cons (by simp), stopsAt_comma⟩
      rw [RelExpr.furtherTokens, List.cons_append, List.append_assoc, moreArguments?,
        argReads.expression?_eq (by decide) (by omega) behind.1 behind.2,
        RelExpr.groupedAll?, RelExpr.grouped?]
      cases arg.core? with
      | none => rfl
      | some core =>
          simp only [Option.map_some, Option.bind_eq_bind, Option.bind_some]
          rw [inductionHypothesis argsRead (by omega)]
          cases RelExpr.groupedAll? args <;> simp

end ReadsCore

/-- What an expression begins with closes no parenthesis. -/
theorem exists_tokens_eq_cons
    {e : RelExpr}
    (plain : e.Plain) :
    ∃ first others, e.tokens = first :: others ∧ first ≠ .sign .closeParen := by
  induction e with
  | member item property => simp [RelExpr.Plain, RelExpr.plainPart] at plain
  | literal value =>
      cases value with
      | null => exact ⟨_, _, rfl, by simp⟩
      | integer n =>
          rw [RelExpr.tokens, literalTokens, signedTokens]
          split <;> exact ⟨_, _, rfl, by simp⟩
      | real x =>
          rw [RelExpr.tokens, literalTokens, signedTokens, signedTokens]
          split
          · exact ⟨_, _, rfl, by simp⟩
          · split <;> split <;> exact ⟨_, _, rfl, by simp⟩
      | text s => exact ⟨_, _, rfl, by simp⟩
  | membership operand valueSet search operandBegins =>
      simp only [RelExpr.Plain, RelExpr.every_membership] at plain
      obtain ⟨first, others, shape, notClose⟩ := operandBegins plain.2
      exact ⟨first, others ++ arrayTokens valueSet, by simp [RelExpr.tokens, shape], notClose⟩
  | _ => exact ⟨_, _, rfl, by simp⟩

/-- A call is read with all of its arguments. -/
theorem operand?_call
    [NumeralReading]
    (fuel : Nat)
    (rest : List Token)
    {function : String}
    {args : List RelExpr}
    (notKeyword : keyword? (.word function) = none)
    (plain : ∀ arg ∈ args, arg.Plain)
    (each : ∀ arg ∈ args, ReadsCore arg)
    (enough : 2 * (RelExpr.argumentTokens args).length + 4 ≤ fuel) :
    operand? fuel (.word function :: .sign .openParen ::
        (RelExpr.argumentTokens args ++ .sign .closeParen :: rest)) =
      (RelExpr.groupedAll? args).map fun terms => (.call function terms, rest) := by
  obtain ⟨further, rfl⟩ : ∃ further, fuel = further + 2 := ⟨fuel - 2, by omega⟩
  rw [operand?, if_pos notKeyword]
  cases args with
  | nil => simp [RelExpr.argumentTokens, RelExpr.groupedAll?, arguments?]
  | cons arg args =>
      obtain ⟨argReads, argsRead⟩ := List.forall_mem_cons.mp each
      obtain ⟨first, others, shape, notClose⟩ := exists_tokens_eq_cons (plain arg (by simp))
      simp only [RelExpr.argumentTokens, List.length_append] at enough
      have behind : NotCall (RelExpr.furtherTokens args ++ .sign .closeParen :: rest) ∧
          StopsAt loosest (RelExpr.furtherTokens args ++ .sign .closeParen :: rest) := by
        cases args with
        | nil => exact ⟨notCall_cons (by simp), stopsAt_closeParen⟩
        | cons => exact ⟨notCall_cons (by simp), stopsAt_comma⟩
      have argRead : expression? further loosest
          (arg.tokens ++ (RelExpr.furtherTokens args ++ .sign .closeParen :: rest)) =
            arg.grouped?.map (·, RelExpr.furtherTokens args ++ .sign .closeParen :: rest) :=
        argReads.expression?_eq (by decide) (by omega) behind.1 behind.2
      rw [RelExpr.argumentTokens, List.append_assoc, RelExpr.groupedAll?]
      rw [RelExpr.grouped?] at argRead
      have unfolded : arguments? (further + 1)
          (arg.tokens ++ (RelExpr.furtherTokens args ++ .sign .closeParen :: rest)) =
            (expression? further loosest
              (arg.tokens ++ (RelExpr.furtherTokens args ++ .sign .closeParen :: rest))).bind
                fun found => moreArguments? further [found.1] found.2 := by
        rw [shape, List.cons_append, arguments?]
        · rfl
        · intro others' same
          exact notClose (List.cons.inj same).1
      rw [unfolded, argRead]
      cases arg.core? with
      | none => rfl
      | some core =>
          simp only [Option.map_some, Option.bind_eq_bind, Option.bind_some]
          rw [moreArguments?_furtherTokens argsRead (by omega)]
          cases RelExpr.groupedAll? args <;> simp

/-- The operator between two operands is found in front of the right one. -/
theorem infix?_operatorTokens
    (op : Comparison)
    (right : RelExpr) :
    infix? (operatorTokens op right ++ (right.tokens ++ rest)) =
      some (.compare (operatorOf op right), right.tokens ++ rest) := by
  have isWord : keyword? (.word "IS") = some "IS" ∧ keyword? (.word "NOT") = some "NOT" ∧
      keyword? (.word "NULL") = some "NULL" ∧ keyword? (.word "LIKE") = some "LIKE" := by
    decide
  by_cases isNull : right = .literal .null
  · subst isNull
    cases op with
    | eq =>
        simp [operatorTokens, operatorOf, RelExpr.tokens, literalTokens, infix?, isWord,
          afterKeyword?]
    | notEq =>
        simp [operatorTokens, operatorOf, RelExpr.tokens, literalTokens, infix?, isWord,
          afterKeyword?]
    | like =>
        simp [operatorTokens, operatorOf, comparisonToken, comparisonOperator, infix?, isWord]
    | _ => rfl
  · rw [(writeOperator_of_ne_null isNull op).2]
    have asOperator : operatorOf op right = comparisonOperator op := by
      unfold operatorOf
      split <;> simp_all
    rw [asOperator]
    cases op with
    | like => simp [comparisonToken, comparisonOperator, infix?, isWord]
    | _ => rfl

/-- The operator between two operands is no opening parenthesis. -/
theorem notCall_operatorTokens
    (op : Comparison)
    (right : RelExpr) :
    NotCall (operatorTokens op right ++ rest) := by
  unfold operatorTokens
  split
  · exact notCall_cons (by simp)
  · exact notCall_cons (by simp)
  · cases op <;> exact notCall_cons (by simp [comparisonToken])

/-- The digits of a 64-bit number are read as the number. -/
theorem numberValue_integer
    [NumeralReading]
    (n : Int64) :
    numberValue (decide (n.toInt < 0)) ⟨Decimal.digits n.toInt.natAbs, 0⟩ false = .integer n := by
  have low := n.le_toInt
  have high := n.toInt_lt
  have magnitude : Decimal.Numeral.mantissa ⟨Decimal.digits n.toInt.natAbs, 0⟩ =
      n.toInt.natAbs := Decimal.ofDigits_digits _
  have signed : (if decide (n.toInt < 0) = true then -(n.toInt.natAbs : Int)
      else n.toInt.natAbs) = n.toInt := by
    split <;> rename_i sign <;> simp only [decide_eq_true_eq] at sign <;> omega
  have fits : Decimal.int64OfInt? n.toInt = some n := by
    rw [Decimal.int64OfInt?, if_pos (by omega), Int64.ofInt_toInt]
  simp only [numberValue, magnitude, Bool.false_eq_true, ↓reduceIte, signed, fits]

/-- A number with its sign is read as one operand. -/
theorem operand?_number
    [NumeralReading]
    {fuel : Nat}
    (negative : Bool)
    (numeral : Decimal.Numeral)
    (pointed : Bool) :
    operand? (fuel + 1) (signedTokens negative [.number numeral pointed] ++ rest) =
      some (.literal (numberValue negative numeral pointed), rest) := by
  cases negative <;> simp [signedTokens, operand?, simple?]

/-- A minus sign in front of a word is refused. -/
theorem operand?_minusWord
    [NumeralReading]
    {fuel : Nat}
    (word : String) :
    operand? (fuel + 1) (.sign .minus :: .word word :: rest) = none := by
  have isSimple : operand? (fuel + 1) (.sign .minus :: .word word :: rest) =
      simple? (.sign .minus :: .word word :: rest) := by
    rw [operand?] <;> simp
  rw [isSimple]
  simp [simple?, keyword?]

/-- The tokens of a literal are read as one operand, or refused. -/
theorem operand?_literal
    [NumeralReading]
    {fuel : Nat}
    (value : Value)
    (notCall : NotCall rest) :
    operand? (fuel + 1) (literalTokens value ++ rest) = (literalTerm? value).map (·, rest) := by
  cases value with
  | null =>
      have isNull : keyword? (.word "NULL") = some "NULL" ∧ upperName "NULL" ≠ "NOT" := by decide
      rw [literalTokens, List.singleton_append, operand?_word isNull.2 notCall]
      simp [simple?, isNull.1, literalTerm?]
  | integer n =>
      rw [literalTokens, operand?_number, numberValue_integer]
      rfl
  | real x =>
      have isName : keyword? (.word "NaN") = none ∧ upperName "NaN" ≠ "NOT" ∧
          keyword? (.word "inf") = none ∧ upperName "inf" ≠ "NOT" := by
        decide
      unfold literalTokens literalTerm?
      by_cases isNaN : x.isNaN = true
      · simp only [isNaN, ↓reduceIte, List.singleton_append]
        rw [operand?_word isName.2.1 notCall]
        simp [simple?, isName]
      · by_cases isInfinite : x.isInfinite = true
        · cases negative : x.negative with
          | false =>
              simp only [isNaN, isInfinite, negative, signedTokens, Bool.false_eq_true,
                ↓reduceIte, List.singleton_append]
              rw [operand?_word isName.2.2.2 notCall]
              simp [simple?, isName]
          | true =>
              simp only [isNaN, isInfinite, negative, signedTokens, Bool.false_eq_true, ↓reduceIte,
                List.cons_append, List.nil_append]
              exact operand?_minusWord "inf"
        · simp only [isNaN, isInfinite, Bool.false_eq_true, ↓reduceIte]
          rw [operand?_number]
          rfl
  | text s => simp [literalTokens, literalTerm?, operand?, simple?]

/-- The core of a plain expression is read as one operand. -/
theorem readsCore
    [NumeralReading]
    {e : RelExpr}
    (plain : e.Plain) :
    ReadsCore e := by
  have isWord : keyword? (.word "AND") = some "AND" ∧ keyword? (.word "OR") = some "OR" := by
    decide
  induction e with
  | member item property => simp [RelExpr.Plain, RelExpr.plainPart] at plain
  | column tableAlias name =>
      intro fuel rest enough notCall
      obtain ⟨further, rfl⟩ : ∃ further, fuel = further + 1 :=
        ⟨fuel - 1, by simp [RelExpr.core, RelExpr.tokens] at enough; omega⟩
      simp [RelExpr.core, RelExpr.tokens, RelExpr.core?, operand?, simple?]
  | literal value =>
      intro fuel rest enough notCall
      obtain ⟨first, others, shape, -⟩ := exists_tokens_eq_cons plain
      obtain ⟨further, rfl⟩ : ∃ further, fuel = further + 1 :=
        ⟨fuel - 1, by simp [RelExpr.core, shape] at enough; omega⟩
      exact operand?_literal value notCall
  | parameter name =>
      intro fuel rest enough notCall
      obtain ⟨further, rfl⟩ : ∃ further, fuel = further + 1 :=
        ⟨fuel - 1, by simp [RelExpr.core, RelExpr.tokens] at enough; omega⟩
      simp [RelExpr.core, RelExpr.tokens, RelExpr.core?, operand?, simple?]
  | compare left op right leftReads rightReads =>
      simp only [RelExpr.Plain, RelExpr.every_compare] at plain
      intro fuel rest enough notCall
      simp only [RelExpr.core, RelExpr.tokens, List.length_cons, List.length_append,
        List.length_nil] at enough
      obtain ⟨further, rfl⟩ : ∃ further, fuel = further + 1 := ⟨fuel - 1, by omega⟩
      have read := expression?_comparison further rest (leftReads plain.2.1)
        (rightReads plain.2.2) (infix?_operatorTokens op right)
        (notCall_operatorTokens op right) (by omega)
      have whole := operand?_parenthesised read
      simp only [RelExpr.core, RelExpr.tokens, List.cons_append, List.append_assoc,
        List.nil_append] at whole ⊢
      rw [whole, RelExpr.core?, RelExpr.grouped?]
      cases left.core? <;> rfl
  | and left right leftReads rightReads =>
      simp only [RelExpr.Plain, RelExpr.every_and] at plain
      intro fuel rest enough notCall
      simp only [RelExpr.core, RelExpr.tokens, List.length_cons, List.length_append,
        List.length_nil] at enough
      obtain ⟨further, rfl⟩ : ∃ further, fuel = further + 1 := ⟨fuel - 1, by omega⟩
      have isInfix : ∀ others, infix? (.word "AND" :: others) = some (.and, others) := by
        simp [infix?, isWord]
      have read := expression?_connective further rest
        (leftReads plain.2.1) (rightReads plain.2.2) isInfix (by simp) (.inl rfl) (by omega)
      have whole := operand?_parenthesised read
      simp only [RelExpr.core, RelExpr.tokens, List.cons_append, List.append_assoc,
        List.nil_append] at whole ⊢
      rw [whole, RelExpr.core?, RelExpr.grouped?, RelExpr.grouped?]
      cases left.core? <;> cases right.core? <;> rfl
  | or left right leftReads rightReads =>
      simp only [RelExpr.Plain, RelExpr.every_or] at plain
      intro fuel rest enough notCall
      simp only [RelExpr.core, RelExpr.tokens, List.length_cons, List.length_append,
        List.length_nil] at enough
      obtain ⟨further, rfl⟩ : ∃ further, fuel = further + 1 := ⟨fuel - 1, by omega⟩
      have isInfix : ∀ others, infix? (.word "OR" :: others) = some (.or, others) := by
        simp [infix?, isWord]
      have read := expression?_connective further rest
        (leftReads plain.2.1) (rightReads plain.2.2) isInfix (by simp) (.inr rfl) (by omega)
      have whole := operand?_parenthesised read
      simp only [RelExpr.core, RelExpr.tokens, List.cons_append, List.append_assoc,
        List.nil_append] at whole ⊢
      rw [whole, RelExpr.core?, RelExpr.grouped?, RelExpr.grouped?]
      cases left.core? <;> cases right.core? <;> rfl
  | not operand operandReads =>
      simp only [RelExpr.Plain, RelExpr.every_not] at plain
      intro fuel rest enough notCall
      simp only [RelExpr.core, RelExpr.tokens, List.length_cons, List.length_append,
        List.length_nil] at enough
      obtain ⟨further, rfl⟩ : ∃ further, fuel = further + 3 := ⟨fuel - 3, by omega⟩
      have inner : expression? further negated (operand.tokens ++ .sign .closeParen :: rest) =
          operand.grouped?.map (·, .sign .closeParen :: rest) :=
        (operandReads plain.2).expression?_eq (by decide) (by omega) (notCall_cons (by simp))
          stopsAt_closeParen
      have read : expression? (further + 2) loosest
          (.word "NOT" :: operand.tokens ++ .sign .closeParen :: rest) =
            (operand.grouped?.map Term.not).map (·, .sign .closeParen :: rest) := by
        rw [expression?, List.cons_append, operand?_not, inner]
        cases operand.grouped? with
        | none => rfl
        | some term => exact extend?_of_stops stopsAt_closeParen _ _
      have whole := operand?_parenthesised read
      simp only [RelExpr.core, RelExpr.tokens, List.cons_append, List.append_assoc,
        List.nil_append] at whole ⊢
      rw [whole, RelExpr.core?, RelExpr.grouped?]
      cases operand.core? <;> rfl
  | function name args argReads =>
      simp only [RelExpr.Plain, RelExpr.every_function, RelExpr.plainPart, Bool.and_eq_true,
        Bool.not_eq_true'] at plain
      intro fuel rest enough notCall
      simp only [RelExpr.core, RelExpr.tokens, List.length_cons, List.length_append,
        List.length_nil] at enough
      have notKeyword : keyword? (.word (upperName name)) = none := by
        simp only [keyword?, upperName_upperName, plain.1.2, Bool.false_eq_true, ↓reduceIte]
      have read := operand?_call fuel rest notKeyword plain.2
        (fun arg member => argReads arg member (plain.2 arg member)) (by omega)
      simp only [RelExpr.core, RelExpr.tokens, List.cons_append, List.append_assoc,
        List.nil_append]
      rw [read, RelExpr.core?]
      cases RelExpr.groupedAll? args <;> rfl
  | membership operand valueSet search operandReads =>
      simp only [RelExpr.Plain, RelExpr.every_membership] at plain
      intro fuel rest enough notCall
      rw [RelExpr.core, RelExpr.core?]
      exact operandReads plain.2 fuel rest enough notCall

/-- A plain expression is read as its grouping, up to what follows it. -/
theorem term?_tokens
    [NumeralReading]
    {e : RelExpr}
    (plain : e.Plain)
    (notCall : NotCall rest)
    (stops : StopsAt loosest rest) :
    term? (e.tokens ++ rest) = e.grouped?.map (·, rest) := by
  refine (readsCore plain).expression?_eq (by decide) ?_ notCall stops
  rw [depth, List.length_append]
  omega

end Sql.Reader

end FullTextQuery
