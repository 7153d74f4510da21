import FullTextQuery.Proofs.Syntax.Settling

namespace FullTextQuery.Syntax

/-!
# Literals

The tree of a literal spells the value that its matcher reads: an integer is read
exactly if it fits, a number with a fraction as what its whole text denotes, and a
text in quotes with every doubled quote taken as one.
-/

open PegGrammar Query Query.Matcher

variable {bound : Nat}

/-- Digits behind an optional minus sign spell an integer. -/
theorem integer?_eq
    {negative : Bool}
    {digits : List Char}
    (proper : IsDigits digits) :
    Decimal.integer? (minus negative ++ digits) =
      some (signedNumber (minus negative ++ digits)) := by
  cases negative with
  | true => simp [minus, Decimal.integer?, natural?_eq proper, signedNumber]
  | false =>
      have noMinus := digits_ne_sign proper (by decide : Decimal.isDigit '-' = false)
      have noPlus := digits_ne_sign proper (by decide : Decimal.isDigit '+' = false)
      simp only [minus, List.nil_append]
      rw [Decimal.integer?.eq_3 _ noPlus noMinus, signedNumber.eq_2 _ noMinus, natural?_eq proper]
      rfl

/-- An integer is read exactly if it fits. -/
theorem isSome_int64?_iff
    (negative : Bool)
    {digits : List Char}
    (proper : IsDigits digits) :
    (Decimal.int64? (minus negative ++ digits)).isSome ↔
      FitsSigned (minus negative ++ digits) := by
  rw [Decimal.int64?, integer?_eq proper, Option.bind_some, Decimal.int64OfInt?]
  unfold FitsSigned
  split <;> simp_all

/-- The whole text of a number with a fraction denotes what its parts do. -/
theorem ofText?_fraction
    {parts : Fraction}
    (proper : parts.Proper) :
    Binary64.ofText? (String.ofList parts.text) =
      some (Binary64.ofNumeral parts.negative
        ⟨parts.whole ++ parts.fraction, -(parts.fraction.length : Int)⟩) := by
  obtain ⟨c, others, shape⟩ := List.exists_cons_of_ne_nil proper.whole.some
  have digit : Decimal.isDigit c = true := proper.whole.all c (by simp [shape])
  have notDigit : ∀ {d : Char}, Decimal.isDigit d = false → c ≠ d := by
    rintro d noDigit rfl
    simp [digit] at noDigit
  have lowered : c.toLower = c := toLower_of_isDigit digit
  have magnitude : ∀ negative, Binary64.magnitude? negative
      (parts.whole ++ '.' :: parts.fraction) =
        some (Binary64.ofNumeral negative
          ⟨parts.whole ++ parts.fraction, -(parts.fraction.length : Int)⟩) := by
    intro negative
    have read := Decimal.numeral?_pointed proper.whole.some proper.whole.all proper.fraction.all
      Text.stops_nil
    rw [List.append_nil] at read
    -- A name of infinity or NaN begins with a letter.
    have noName : ∀ {name : String} {d : Char}, name.toList.head? = some d →
        Decimal.isDigit d = false →
          String.ofList ((parts.whole ++ '.' :: parts.fraction).map Char.toLower) ≠ name := by
      rintro name d front noDigit rfl
      simp only [shape, String.toList_ofList, List.cons_append, List.map_cons, lowered,
        List.head?_cons, Option.some.injEq] at front
      exact notDigit noDigit front
    unfold Binary64.magnitude?
    split
    · rename_i isName
      exact absurd isName (noName rfl (by decide : Decimal.isDigit 'i' = false))
    · rename_i isName
      exact absurd isName (noName rfl (by decide : Decimal.isDigit 'i' = false))
    · rename_i isName
      exact absurd isName (noName rfl (by decide : Decimal.isDigit 'n' = false))
    · rw [read]
      rfl
  unfold Binary64.ofText?
  rw [String.toList_ofList, Fraction.text]
  cases parts.negative with
  | true => exact magnitude true
  | false =>
      simp only [minus, List.nil_append]
      split
      · rename_i front
        rw [shape, List.cons_append] at front
        exact absurd (List.cons.inj front).1 (notDigit (by decide))
      · rename_i front
        rw [shape, List.cons_append] at front
        exact absurd (List.cons.inj front).1 (notDigit (by decide))
      · exact magnitude false

/-- The tree of a literal. -/
def StandsForLiteral
    (reading : Reading Value)
    (trees : List (Tree Rule)) :
    Prop :=
  ∃ t : Tree Rule, trees = [t] ∧
    Settles (IntegersFit t) (literalOf t) (reading.map Expr.literal)

/-- The rule of the null literal takes it where the matcher does. -/
theorem takes_nullLiteral
    (cs : List Char) :
    Takes (.rule .null) StandsForLiteral cs (Grammar.nullLiteral cs).matched? := by
  have scanned : Takes (.rule .null) (Token .null fun _ _ => True) cs
      (token (scanWord? "null".toList) cs).matched? := by
    rw [matched?_token]
    exact takes_wholeWord rfl rfl (by simp)
  refine scanned.finish (fun _ _ => rfl) ?_
  rintro _ _ ⟨text, rfl, -⟩
  exact ⟨_, rfl, .ok (integersFit_leaf (by simp) (by simp))⟩

/-- The rule of reals takes them where the matcher does. -/
theorem takes_realLiteral
    (cs : List Char) :
    Takes (.rule .real) StandsForLiteral cs (Grammar.realLiteral cs).matched? := by
  have scanned : Takes (.rule .real) (Token .real fun parts text =>
      text = parts.text ∧ parts.Proper) cs (token scanReal? cs).matched? := by
    rw [matched?_token]
    exact takes_real
  refine scanned.finish (fun _ _ => rfl) ?_
  rintro parts _ ⟨_, rfl, rfl, proper⟩
  refine ⟨_, rfl, ?_⟩
  have built : literalOf (.node .real parts.text []) = .ok (.literal (.real
      (Binary64.ofNumeral parts.negative
        ⟨parts.whole ++ parts.fraction, -(parts.fraction.length : Int)⟩))) := by
    simp [literalOf, ofText?_fraction proper]
  rw [built]
  exact .ok (integersFit_leaf (by simp) (by simp))

/-- The rule of integers takes them where the matcher does. -/
theorem takes_integerLiteral
    (cs : List Char) :
    Takes (.rule .integer) StandsForLiteral cs (Grammar.integerLiteral cs).matched? := by
  have scanned : Takes (.rule .integer) (Token .integer fun digits text => text = digits ∧
      ∃ negative unsigned, digits = minus negative ++ unsigned ∧ IsDigits unsigned) cs
      (token scanInteger? cs).matched? := by
    rw [matched?_token]
    exact takes_integer
  rw [Grammar.integerLiteral, matched?_bind_of_some matched?_left]
  refine scanned.finish
    (f := fun digits => (Decimal.int64? digits).elim (.error ⟨String.ofList digits, cs.length⟩)
      fun n => .ok (.integer n)) ?_ ?_
  · intro digits rest
    cases Decimal.int64? digits <;> rfl
  · rintro digits _ ⟨_, rfl, rfl, negative, unsigned, rfl, proper⟩
    refine ⟨_, rfl, ?_⟩
    have fits := isSome_int64?_iff negative proper
    have integer : IntegersFit (.node .integer (minus negative ++ unsigned) []) ↔
        FitsSigned (minus negative ++ unsigned) := Iff.rfl
    rw [← fits] at integer
    simp only [literalOf, Tree.rule_node, Tree.text_node]
    generalize Decimal.int64? (minus negative ++ unsigned) = read at integer
    cases read with
    | none => exact .misfit (by simp [integer])
    | some n => exact .ok (by simp [integer])

/-- A quote that was doubled is found once. -/
theorem undoubled_doubled
    (quote : Char)
    (value : List Char) :
    undoubled quote (Expr.doubled quote value) = value := by
  induction value with
  | nil => rfl
  | cons c value inductionHypothesis =>
      have split : Expr.doubled quote (c :: value) =
          (if c = quote then [c, c] else [c]) ++ Expr.doubled quote value := by
        simp [Expr.doubled]
      rw [split]
      by_cases isQuote : c = quote
      · simp [isQuote, undoubled, inductionHypothesis]
      · rw [if_neg isQuote, List.singleton_append]
        cases shape : Expr.doubled quote value with
        | nil =>
            rw [shape] at inductionHypothesis
            simp [undoubled, ← inductionHypothesis]
        | cons d others =>
            rw [undoubled, if_neg (fun both => isQuote both.1), ← shape, inductionHypothesis]

/-- The rule of texts takes them where the matcher does. -/
theorem takes_textLiteral
    (cs : List Char) :
    Takes (.rule .text) StandsForLiteral cs (Grammar.textLiteral cs).matched? := by
  have scanned : Takes (.rule .text) QuotedToken cs (token scanText? cs).matched? := by
    rw [matched?_token]
    exact takes_text
  refine scanned.finish (fun _ _ => rfl) ?_
  rintro value _ ⟨t, rfl, isText, quote, r, parts, isKind⟩
  refine ⟨t, rfl, ?_⟩
  obtain ⟨rule, text, inner⟩ := t
  cases isText
  cases parts
  have built : literalOf (.node .text text [.node r (Expr.doubled quote value.toList) []]) =
      .ok (.literal (.text value)) := by
    rcases isKind with ⟨rfl, rfl⟩ | ⟨rfl, rfl⟩ <;> simp [literalOf, undoubled_doubled]
  rw [built]
  refine .ok ?_
  rcases isKind with ⟨-, rfl⟩ | ⟨-, rfl⟩ <;> simp [integersFit_node]

/-- The matcher of literals mirrors their rule. -/
theorem mirrors_literal :
    Mirrors bound 1 (.rule .literal) (Stands .literal atomOf) Grammar.literal := by
  refine .rule (fun _ _ => rfl) ?_
  have inside : Mirrors bound 1 (grammar.inside .literal) StandsForLiteral
      (firstOf [Grammar.nullLiteral, Grammar.realLiteral, Grammar.integerLiteral,
        Grammar.textLiteral]) :=
    (Mirrors.ofTakes takes_nullLiteral).orElse ((Mirrors.ofTakes takes_realLiteral).orElse
      ((Mirrors.ofTakes takes_integerLiteral).orElse (Mirrors.ofTakes takes_textLiteral).only))
  refine inside.finish le_rfl (fun _ _ => rfl) ?_
  rintro reading _ ⟨t, rfl, settles⟩ text
  refine ⟨_, rfl, rfl, ?_⟩
  rw [atomOf]
  exact settles.congr (by simp [integersFit_node])

end FullTextQuery.Syntax
