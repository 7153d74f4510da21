import FullTextQuery.Proofs.Query.Canonical
import FullTextQuery.Proofs.Query.Matching

namespace FullTextQuery.Query

/-!
# Units of canonical texts

What a matcher takes off a text depends on what follows: an identifier goes on with
letters, an item in front of a parenthesis is a call, and an operand in front of an
operator is half a comparison.  The conditions on what follows are stated here, and
each unit of a canonical text is read back under them.
-/

open Matcher Grammar

variable {cs rest : List Char} {m : Matcher (Reading Expr)}

/-- Whether a character directly behind an operand would belong to it. -/
def continuesOperand
    (c : Char) :
    Bool :=
  isNameChar c || c == '.' || c == '"' || c == '\''

/-- Whether an operand ends in front of a text. -/
structure EndsOperand
    (rest : List Char) :
    Prop where
  stops : Text.Stops continuesOperand rest
  noCall : Text.Stops (· == '(') (skipLayout .between rest)

/-- Whether a comparison ends in front of a text. -/
structure EndsComparison
    (rest : List Char) :
    Prop extends EndsOperand rest where
  noOperator : scanOperator? (skipLayout .between rest) = none

/-- Whether a conjunction ends in front of a text. -/
structure EndsConjunction
    (rest : List Char) :
    Prop extends EndsComparison rest where
  noAnd : scanWord? "and".toList (skipLayout .between rest) = none

/-- Whether an expression ends in front of a text. -/
structure EndsExpr
    (rest : List Char) :
    Prop extends EndsConjunction rest where
  noOr : scanWord? "or".toList (skipLayout .between rest) = none

namespace EndsOperand

/-- Where an operand ends, no name goes on. -/
theorem noName
    (ends : EndsOperand rest) :
    Text.Stops isNameChar rest := by
  intro c front
  have stops := ends.stops c front
  simp only [continuesOperand, Bool.or_eq_false_iff] at stops
  exact stops.1.1.1

/-- Where an operand ends, there is no point. -/
theorem noPoint
    (ends : EndsOperand rest) :
    Text.Stops (· == '.') rest := by
  intro c front
  have stops := ends.stops c front
  simp only [continuesOperand, Bool.or_eq_false_iff] at stops
  exact stops.1.1.2

/-- Where an operand ends, no number goes on. -/
theorem noDigit
    (ends : EndsOperand rest) :
    Text.Stops Decimal.isDigit rest := by
  intro c front
  have stops := ends.noName c front
  simp only [isNameChar, Char.isAlphanum, Bool.or_eq_false_iff] at stops
  rw [Decimal.isDigit_eq]
  exact stops.1.2

/-- Where an operand ends, no text goes on. -/
theorem noQuote
    (ends : EndsOperand rest)
    {quote : Char}
    (isQuote : quote = '"' ∨ quote = '\'') :
    Text.Stops (· == quote) rest := by
  intro c front
  have stops := ends.stops c front
  simp only [continuesOperand, Bool.or_eq_false_iff] at stops
  rcases isQuote with rfl | rfl
  · exact stops.1.2
  · exact stops.2

end EndsOperand

/-- How a canonical text of an expression begins: never with layout. -/
inductive Opens : List Char → Prop
  | visible {c : Char} {others : List Char} :
      isSpace c = false → c ≠ '/' → c ≠ '-' → Opens (c :: others)
  | signed {d : Char} {others : List Char} : d ≠ '-' → Opens ('-' :: d :: others)

/-- What opens an expression opens it whatever stands behind. -/
theorem Opens.append
    (opens : Opens cs)
    (rest : List Char) :
    Opens (cs ++ rest) := by
  cases opens with
  | visible noSpace noBlock noLine => exact .visible noSpace noBlock noLine
  | signed noLine => exact .signed noLine

/-- An expression does not open with layout. -/
theorem Opens.bare
    (opens : Opens cs) :
    Bare cs := by
  cases opens with
  | visible noSpace noBlock noLine =>
      refine ⟨by simpa using noSpace, ?_, ?_⟩
      · rintro others shape
        cases shape
        exact noLine rfl
      · rintro others shape
        cases shape
        exact absurd rfl noBlock
  | signed noLine =>
      refine ⟨by simp [isSpace], ?_, by simp⟩
      rintro others shape
      cases shape
      exact noLine rfl

/-- The blank in front of a unit is all the layout there. -/
theorem skipLayout_blank
    (opens : Opens cs) :
    skipLayout .between (' ' :: cs) = cs := by
  rw [skipLayout_cons (by simp) (by simp), if_pos (by decide), skipLayout_of_bare opens.bare]

/-- Characters of different kinds are different. -/
theorem ne_of_kind
    {kind : Char → Bool}
    {c other : Char}
    (isKind : kind c = true)
    (noKind : kind other = false) :
    c ≠ other := by
  rintro rfl
  simp [isKind] at noKind

theorem isDigit_of_isNameStart
    {c : Char}
    (start : isNameStart c = true) :
    Decimal.isDigit c = false := by
  rw [Decimal.isDigit_eq]
  by_contra digit
  simp only [isNameStart, Char.isAlpha, Char.isUpper, Char.isLower, Char.isDigit,
    Bool.or_eq_true, Bool.and_eq_true, decide_eq_true_eq, beq_iff_eq, ge_iff_le,
    UInt32.le_iff_toNat_le, Bool.not_eq_false] at start digit
  have greatest : '9'.val.toNat = 57 := rfl
  have upper : 'A'.val.toNat = 65 := rfl
  have lower : 'a'.val.toNat = 97 := rfl
  rcases start with (isUpper | isLower) | rfl
  · omega
  · omega
  · exact absurd digit.2 (by decide)

/-- A character of a kind that no layout begins with begins a unit. -/
theorem Opens.ofKind
    {kind : Char → Bool}
    {c : Char}
    {others : List Char}
    (isKind : kind c = true)
    (noLayout : [' ', '\t', '\r', '\n', '/', '-'].all fun d => !kind d) :
    Opens (c :: others) := by
  have other : ∀ d ∈ [' ', '\t', '\r', '\n', '/', '-'], c ≠ d := fun d member =>
    ne_of_kind isKind (by simpa using List.all_eq_true.mp noLayout d member)
  refine .visible ?_ (other _ (by simp)) (other _ (by simp))
  simp only [isSpace, Bool.or_eq_false_iff, beq_eq_false_iff_ne]
  exact ⟨⟨⟨other _ (by simp), other _ (by simp)⟩, other _ (by simp)⟩, other _ (by simp)⟩

/-- A name opens an expression. -/
theorem IsName.opens
    {name : String}
    (proper : IsName name) :
    Opens name.toList := by
  obtain ⟨c, others, shape, start, -⟩ := isIdentifier_iff.mp proper.identifier
  rw [shape]
  exact .ofKind start rfl

section Names

variable {name : String}

/-- A name is scanned where it stops. -/
theorem IsName.scanName?
    (proper : IsName name)
    (stops : Text.Stops isNameChar rest) :
    scanName? (name.toList ++ rest) = some (name, rest) :=
  scanName?_eq_some_iff.mpr ⟨proper, rfl, stops⟩

/-- A run of letters, digits and underscores is one word. -/
theorem scanWord?_run
    {word text : List Char}
    (wordChars : ∀ c ∈ word, isNameChar c = true)
    (textChars : ∀ c ∈ text, isNameChar c = true)
    (stops : Text.Stops isNameChar rest)
    (other : text.map Char.toLower ≠ word) :
    scanWord? word (text ++ rest) = none := by
  rw [Option.eq_none_iff_forall_ne_some]
  rintro ⟨⟨⟩, after⟩ found
  obtain ⟨taken, shape, lowered, ends⟩ := scanWord?_eq_some_iff.mp found
  have takenChars : ∀ c ∈ taken, isNameChar c = true := by
    intro c member
    rw [← isNameChar_toLower]
    exact wordChars _ (lowered ▸ List.mem_map_of_mem member)
  have same := Text.takeWhile_run takenChars ends
  rw [← shape, Text.takeWhile_run textChars stops] at same
  exact other (same ▸ lowered)

/-- No identifier begins with anything but a letter or an underscore. -/
theorem scanName?_of_head
    {c : Char}
    {others : List Char}
    (noStart : isNameStart c = false) :
    Query.scanName? (c :: others) = none := by
  simp [Query.scanName?, noStart]

/-- A reserved word is no identifier. -/
theorem scanName?_of_reserved
    {text : List Char}
    (textChars : ∀ c ∈ text, isNameChar c = true)
    (reserved : text.map Char.toLower ∈ reservedWords)
    (stops : Text.Stops isNameChar rest) :
    Query.scanName? (text ++ rest) = none := by
  rw [Option.eq_none_iff_forall_ne_some]
  rintro ⟨found, after⟩ isName
  obtain ⟨proper, shape, ends⟩ := scanName?_eq_some_iff.mp isName
  have same := Text.takeWhile_run (fun c => proper.isNameChar_of_mem) ends
  rw [← shape, Text.takeWhile_run textChars stops] at same
  exact proper.notReserved (same ▸ reserved)

/-- An identifier is no keyword. -/
theorem IsName.scanWord?
    (proper : IsName name)
    (stops : Text.Stops isNameChar rest)
    {word : List Char}
    (reserved : word ∈ reservedWords) :
    scanWord? word (name.toList ++ rest) = none := by
  refine scanWord?_run (isNameChar_of_mem_reservedWords reserved)
    (fun c => proper.isNameChar_of_mem) stops ?_
  rintro rfl
  exact proper.notReserved reserved

end Names

section Literals

variable {c : Char} {others : List Char}

theorem scanInteger?_of_head
    (noDigit : Decimal.isDigit c = false)
    (noSign : c ≠ '-') :
    scanInteger? (c :: others) = none := by
  simp [scanInteger?, noSign, noDigit]

theorem scanReal?_of_head
    (noDigit : Decimal.isDigit c = false)
    (noSign : c ≠ '-') :
    scanReal? (c :: others) = none := by
  simp [scanReal?, noSign, noDigit]

theorem scanText?_of_head
    (noDouble : c ≠ '"')
    (noSingle : c ≠ '\'') :
    scanText? (c :: others) = none := by
  simp [scanText?, noDouble, noSingle]

/-- Nothing is a literal that is no word, no number and no quoted text. -/
theorem matched?_literal_of_none
    (noNull : scanWord? "null".toList cs = none)
    (noReal : scanReal? cs = none)
    (noInteger : scanInteger? cs = none)
    (noText : scanText? cs = none) :
    (literal cs).matched? = none := by
  simp only [literal, nullLiteral, realLiteral, integerLiteral, textLiteral, matched?_rule,
    matched?_bind, matched?_firstOf_cons, matched?_firstOf_nil, matched?_token, matched?_left,
    noNull, noReal, noInteger, noText, Option.bind_none, Option.bind_some, Option.or_none]

/-- The word `null` is read as a literal. -/
theorem matched?_literal_null
    (ends : EndsOperand rest) :
    (literal ("null".toList ++ rest)).matched? = some (.ok (.literal .null), rest) := by
  have found : scanWord? "null".toList ("null".toList ++ rest) = some ((), rest) :=
    scanWord?_eq_some_iff.mpr ⟨"null".toList, rfl, by decide, ends.noName⟩
  simp only [literal, nullLiteral, matched?_rule, matched?_bind, matched?_firstOf_cons,
    matched?_token, found, Option.bind_some, matched?_pure, Option.some_or]
  rfl

/-- The decimal text of an integer is digits with a sign if it is negative. -/
theorem toList_ofInt
    (n : Int) :
    (Decimal.ofInt n).toList = minus (decide (n < 0)) ++ Decimal.digits n.natAbs := by
  unfold Decimal.ofInt
  by_cases negative : n < 0 <;> simp [negative, minus]

theorem isDigits_digits
    (n : Nat) :
    IsDigits (Decimal.digits n) where
  some := Nat.toDigits_ne_nil
  all := fun _ => Decimal.isDigit_of_mem_digits

/-- Digits open a unit, with a sign or without. -/
theorem opens_minus
    (negative : Bool)
    {digits : List Char}
    (proper : IsDigits digits) :
    Opens (minus negative ++ digits) := by
  obtain ⟨first, others, shape⟩ := List.exists_cons_of_ne_nil proper.some
  have digit := proper.all first (by simp [shape])
  rw [shape]
  cases negative with
  | true => exact .signed (ne_of_kind digit rfl)
  | false => exact .ofKind digit rfl

/-- An integer is read back from its decimal text. -/
theorem int64?_ofInt
    (n : Int64) :
    Decimal.int64? (Decimal.ofInt n.toInt).toList = some n := by
  have lowest := Int64.le_toInt n
  have greatest := Int64.toInt_lt n
  have fits : Decimal.int64OfInt? n.toInt = some n := by
    rw [Decimal.int64OfInt?, if_pos (by omega), Int64.ofInt_toInt]
  have read : Decimal.integer? (Decimal.ofInt n.toInt).toList = some n.toInt := by
    have proper := isDigits_digits n.toInt.natAbs
    rw [toList_ofInt]
    by_cases negative : n.toInt < 0
    · simp [negative, minus, Decimal.integer?, natural?_eq proper, abs_of_neg negative]
    · rw [decide_eq_false negative, minus, List.nil_append,
        Decimal.integer?.eq_3 _ (digits_ne_sign proper (by decide))
          (digits_ne_sign proper (by decide)), natural?_eq proper]
      simp [abs_of_nonneg (not_lt.mp negative)]
  rw [Decimal.int64?, read, Option.bind_some, fits]

/-- A word does not begin with another letter. -/
theorem scanWord?_of_head
    {letter : Char}
    {word : List Char}
    (other : c.toLower ≠ letter) :
    scanWord? (letter :: word) (c :: others) = none := by
  simp [scanWord?, afterWord?, other]

section Integers

variable {negative : Bool} {digits : List Char}

/-- A number begins with no letter. -/
theorem scanWord?_minus
    (proper : IsDigits digits)
    {letter : Char}
    {word : List Char}
    (noDigit : Decimal.isDigit letter = false)
    (noSign : '-' ≠ letter) :
    scanWord? (letter :: word) (minus negative ++ digits ++ rest) = none := by
  cases negative with
  | true => exact scanWord?_of_head noSign
  | false =>
      obtain ⟨first, others, rfl⟩ := List.exists_cons_of_ne_nil proper.some
      have digit := proper.all first (by simp)
      refine scanWord?_of_head ?_
      rw [toLower_of_isDigit digit]
      rintro rfl
      simp [digit] at noDigit

/-- Digits without a point behind them are no number with a fraction. -/
theorem scanReal?_integer
    (proper : IsDigits digits)
    (noDigit : Text.Stops Decimal.isDigit rest)
    (noPoint : Text.Stops (· == '.') rest) :
    scanReal? (minus negative ++ digits ++ rest) = none := by
  rw [List.append_assoc, scanReal?_minus fun _ => proper.append_ne,
    Text.takeWhile_run proper.all noDigit, Text.dropWhile_run proper.all noDigit]
  split
  · rfl
  · exact absurd noPoint (by simp)
  · rfl

end Integers

/-- The digits of an integer are read as its literal. -/
theorem matched?_literal_integer
    (n : Int64)
    (ends : EndsOperand rest) :
    (literal ((Decimal.ofInt n.toInt).toList ++ rest)).matched? =
      some (.ok (.literal (.integer n)), rest) := by
  have proper := isDigits_digits n.toInt.natAbs
  have spelled := toList_ofInt n.toInt
  have noNull : scanWord? "null".toList ((Decimal.ofInt n.toInt).toList ++ rest) = none := by
    rw [spelled]
    exact scanWord?_minus proper (by decide) (by decide)
  have noReal : scanReal? ((Decimal.ofInt n.toInt).toList ++ rest) = none := by
    rw [spelled]
    exact scanReal?_integer proper ends.noDigit ends.noPoint
  have found : scanInteger? ((Decimal.ofInt n.toInt).toList ++ rest) =
      some ((Decimal.ofInt n.toInt).toList, rest) :=
    scanInteger?_eq_some_iff.mpr ⟨_, _, spelled, proper, rfl, ends.noDigit⟩
  simp only [literal, nullLiteral, realLiteral, integerLiteral, matched?_rule, matched?_bind,
    matched?_firstOf_cons, matched?_token, matched?_left, noNull, noReal, found,
    Option.bind_none, Option.bind_some, Option.none_or, int64?_ofInt, matched?_pure,
    Option.some_or]
  rfl

/-- A text in quotes is read as its literal. -/
theorem matched?_literal_text
    {quote : Char}
    (s : String)
    (isQuote : quote = '"' ∨ quote = '\'')
    (ends : EndsOperand rest) :
    (literal (quote :: (Expr.doubled quote s.toList ++ [quote]) ++ rest)).matched? =
      some (.ok (.literal (.text s)), rest) := by
  have quoted : scanQuoted? quote (Expr.doubled quote s.toList ++ quote :: rest) =
      some (s.toList, rest) :=
    scanQuoted?_eq_some_iff.mpr ⟨rfl, ends.noQuote isQuote⟩
  have found : scanText? (quote :: (Expr.doubled quote s.toList ++ [quote]) ++ rest) =
      some (s, rest) := by
    rcases isQuote with rfl | rfl <;> simp [scanText?, quoted]
  have noNull : scanWord? "null".toList
      (quote :: (Expr.doubled quote s.toList ++ [quote]) ++ rest) = none := by
    rcases isQuote with rfl | rfl <;> exact scanWord?_of_head (by decide)
  have noReal : scanReal? (quote :: (Expr.doubled quote s.toList ++ [quote]) ++ rest) = none := by
    rcases isQuote with rfl | rfl <;> exact scanReal?_of_head (by decide) (by decide)
  have noInteger :
      scanInteger? (quote :: (Expr.doubled quote s.toList ++ [quote]) ++ rest) = none := by
    rcases isQuote with rfl | rfl <;> exact scanInteger?_of_head (by decide) (by decide)
  simp only [literal, nullLiteral, realLiteral, integerLiteral, textLiteral, matched?_rule,
    matched?_bind, matched?_firstOf_cons, matched?_token, matched?_left, noNull, noReal,
    noInteger, found, Option.bind_none, Option.bind_some, Option.none_or, matched?_pure,
    Option.some_or]
  rfl

end Literals

end FullTextQuery.Query
