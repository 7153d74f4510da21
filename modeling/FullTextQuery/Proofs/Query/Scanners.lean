import FullTextQuery.Model
import FullTextQuery.Proofs.Decimal.Numeral
import FullTextQuery.Proofs.Query.Layout
import FullTextQuery.Proofs.Sql.Scanning

namespace FullTextQuery.Query

/-!
# What each scanner takes

A scanner takes exactly the texts of its kind that what follows does not go on
with: each is characterised by the text that it takes and by what may follow.
-/

variable {cs rest : List Char}

/-- A run of one kind stands in front of something else. -/
theorem run_iff
    {kind : Char → Bool}
    {run : List Char} :
    cs.takeWhile kind = run ∧ cs.dropWhile kind = rest ↔
      (∀ c ∈ run, kind c = true) ∧ cs = run ++ rest ∧ Text.Stops kind rest := by
  constructor
  · rintro ⟨rfl, rfl⟩
    exact ⟨fun c member => List.mem_takeWhile_imp member,
      List.takeWhile_append_dropWhile.symm, Text.stops_dropWhile cs⟩
  · rintro ⟨all, rfl, stops⟩
    exact ⟨Text.takeWhile_run all stops, Text.dropWhile_run all stops⟩

/-- Whether a text is an identifier of the query language. -/
structure IsName
    (name : String) :
    Prop where
  identifier : isIdentifier name = true
  notReserved : name.toList.map Char.toLower ∉ reservedWords

instance (name : String) : Decidable (IsName name) :=
  decidable_of_iff (isIdentifier name = true ∧ name.toList.map Char.toLower ∉ reservedWords)
    ⟨fun both => ⟨both.1, both.2⟩, fun proper => ⟨proper.identifier, proper.notReserved⟩⟩

theorem isNameChar_of_isNameStart
    {c : Char}
    (start : isNameStart c = true) :
    isNameChar c = true := by
  simp only [isNameStart, isNameChar, Char.isAlphanum, Bool.or_eq_true] at start ⊢
  tauto

theorem isNameChar_toLower
    (c : Char) :
    isNameChar c.toLower = isNameChar c := by
  by_cases upper : c.isUpper = true
  · have isLetter : c.isAlpha = true := by simp [Char.isAlpha, upper]
    have staysLetter : c.toLower.isAlpha = true := by simpa using isLetter
    simp [isNameChar, Char.isAlphanum, isLetter, staysLetter]
  · rw [Char.toLower_eq_of_not_isUpper upper]

theorem isNameStart_toLower
    (c : Char) :
    isNameStart c.toLower = isNameStart c := by
  by_cases upper : c.isUpper = true
  · have isLetter : c.isAlpha = true := by simp [Char.isAlpha, upper]
    have staysLetter : c.toLower.isAlpha = true := by simpa using isLetter
    simp [isNameStart, isLetter, staysLetter]
  · rw [Char.toLower_eq_of_not_isUpper upper]

/-- An identifier begins with a letter or an underscore, and goes on with such and digits. -/
theorem isIdentifier_iff
    {name : String} :
    isIdentifier name = true ↔
      ∃ c others, name.toList = c :: others ∧ isNameStart c = true ∧
        ∀ d ∈ others, isNameChar d = true := by
  unfold isIdentifier
  cases name.toList with
  | nil => simp
  | cons c others => simp [isNameStart, isNameChar]

theorem IsName.isNameChar_of_mem
    {name : String}
    (proper : IsName name)
    {c : Char}
    (member : c ∈ name.toList) :
    isNameChar c = true := by
  obtain ⟨first, others, shape, start, all⟩ := isIdentifier_iff.mp proper.identifier
  rw [shape] at member
  rcases List.mem_cons.mp member with rfl | later
  · exact isNameChar_of_isNameStart start
  · exact all c later

/-- Reserved words are made of characters of names. -/
theorem isNameChar_of_mem_reservedWords
    {word : List Char}
    (reserved : word ∈ reservedWords) :
    ∀ c ∈ word, isNameChar c = true := by
  have all : ∀ word ∈ reservedWords, word.all isNameChar = true := by decide +kernel
  exact List.all_eq_true.mp (all word reserved)

/-- A word is found in front, in any case. -/
theorem afterWord?_eq_some_iff
    {word : List Char} :
    afterWord? word cs = some rest ↔
      ∃ text, cs = text ++ rest ∧ text.map Char.toLower = word := by
  induction word generalizing cs with
  | nil =>
      simp [afterWord?]
  | cons expected word inductionHypothesis =>
      cases cs with
      | nil => simp [afterWord?]
      | cons c others =>
          by_cases same : c.toLower = expected
          · simp only [afterWord?, if_pos same, inductionHypothesis]
            constructor
            · rintro ⟨text, rfl, lowered⟩
              exact ⟨c :: text, rfl, by simp [same, lowered]⟩
            · rintro ⟨text, shape, lowered⟩
              obtain ⟨d, text, rfl⟩ : ∃ d others, text = d :: others :=
                List.exists_cons_of_ne_nil (by rintro rfl; simp at lowered)
              simp only [List.cons_append, List.cons.injEq, List.map_cons] at shape lowered
              exact ⟨text, shape.2, lowered.2⟩
          · simp only [afterWord?, if_neg same, reduceCtorEq, false_iff]
            rintro ⟨text, shape, lowered⟩
            cases text with
            | nil => simp at lowered
            | cons d text =>
                simp only [List.cons_append, List.cons.injEq, List.map_cons] at shape lowered
                exact same (shape.1 ▸ lowered.1)

/-- A name stops where no character of names stands. -/
theorem continuesName_eq_false_iff :
    continuesName rest = false ↔ Text.Stops isNameChar rest := by
  cases rest <;> simp [continuesName]

/-- A keyword is taken in any case where no identifier goes on behind it. -/
theorem scanWord?_eq_some_iff
    {word : List Char} :
    scanWord? word cs = some ((), rest) ↔
      ∃ text, cs = text ++ rest ∧ text.map Char.toLower = word ∧
        Text.Stops isNameChar rest := by
  rw [← continuesName_eq_false_iff]
  unfold scanWord?
  cases found : afterWord? word cs with
  | none =>
      simp only [reduceCtorEq, false_iff]
      rintro ⟨text, shape, lowered, -⟩
      have := afterWord?_eq_some_iff.mpr ⟨text, shape, lowered⟩
      simp [found] at this
  | some after =>
      obtain ⟨text, shape, lowered⟩ := afterWord?_eq_some_iff.mp found
      have sameAfter : ∀ {other}, (∃ text, cs = text ++ other ∧ text.map Char.toLower = word) →
          after = other := fun other =>
        Option.some.inj (found.symm.trans (afterWord?_eq_some_iff.mpr other))
      cases more : continuesName after with
      | true =>
          simp only [↓reduceIte, more, reduceCtorEq, false_iff]
          rintro ⟨text, shape, lowered, stops⟩
          obtain rfl := sameAfter ⟨text, shape, lowered⟩
          simp [more] at stops
      | false =>
          simp only [more, Bool.false_eq_true, ↓reduceIte, Option.some.injEq, Prod.mk.injEq,
            true_and]
          constructor
          · rintro rfl
            exact ⟨text, shape, lowered, more⟩
          · rintro ⟨text, shape, lowered, -⟩
            exact sameAfter ⟨text, shape, lowered⟩

/-- An identifier is taken as a whole. -/
theorem scanName?_eq_some_iff
    {name : String} :
    scanName? cs = some (name, rest) ↔
      IsName name ∧ cs = name.toList ++ rest ∧ Text.Stops isNameChar rest := by
  cases cs with
  | nil =>
      simp only [scanName?, reduceCtorEq, false_iff]
      rintro ⟨proper, shape, -⟩
      obtain ⟨c, others, spelled, -, -⟩ := isIdentifier_iff.mp proper.identifier
      simp [spelled] at shape
  | cons c others =>
      simp only [scanName?, Option.ite_none_right_eq_some, Bool.and_eq_true,
        Bool.not_eq_true', List.contains_eq_mem, decide_eq_false_iff_not, Option.some.injEq,
        Prod.mk.injEq]
      constructor
      · rintro ⟨⟨start, notReserved⟩, rfl, rfl⟩
        refine ⟨⟨?_, by simpa using notReserved⟩, ?_, ?_⟩
        · refine isIdentifier_iff.mpr ⟨c, _, String.toList_ofList, start, ?_⟩
          exact fun d member => List.mem_takeWhile_imp member
        · simp
        · exact Text.stops_dropWhile others
      · rintro ⟨proper, shape, stops⟩
        obtain ⟨d, more, spelled, start, all⟩ := isIdentifier_iff.mp proper.identifier
        rw [spelled, List.cons_append, List.cons.injEq] at shape
        obtain ⟨rfl, rfl⟩ := shape
        rw [Text.takeWhile_run all stops, Text.dropWhile_run all stops, ← spelled,
          String.ofList_toList]
        exact ⟨⟨start, proper.notReserved⟩, rfl, rfl⟩

/-- Digits, at least one. -/
structure IsDigits
    (digits : List Char) :
    Prop where
  some : digits ≠ []
  all : ∀ c ∈ digits, Decimal.isDigit c = true

/-- A minus sign or nothing. -/
def minus : Bool → List Char
  | true => ['-']
  | false => []

/-- Digits have no sign in front. -/
theorem IsDigits.append_ne
    {digits : List Char}
    (proper : IsDigits digits)
    (others : List Char) :
    digits ++ rest ≠ '-' :: others := by
  intro shape
  obtain ⟨c, more, rfl⟩ := List.exists_cons_of_ne_nil proper.some
  cases shape
  exact absurd (proper.all '-' (by simp)) (by decide)

/-- A digit is the same in lower case. -/
theorem toLower_of_isDigit
    {c : Char}
    (digit : Decimal.isDigit c = true) :
    c.toLower = c := by
  refine Char.toLower_eq_of_not_isUpper fun upper => ?_
  rw [Decimal.isDigit_eq] at digit
  simp only [Char.isDigit, Char.isUpper, Bool.and_eq_true, decide_eq_true_eq, ge_iff_le,
    UInt32.le_iff_toNat_le] at digit upper
  have low : '9'.val.toNat = 57 := rfl
  have high : 'A'.val.toNat = 65 := rfl
  omega

theorem natural?_eq
    {digits : List Char}
    (proper : IsDigits digits) :
    Decimal.natural? digits = some (Decimal.ofDigits digits) := by
  have allDigits : digits.all Decimal.isDigit = true := List.all_eq_true.mpr proper.all
  have notEmpty : digits.isEmpty = false := by simpa using proper.some
  simp [Decimal.natural?, allDigits, notEmpty]

/-- The first of some digits is no sign. -/
theorem digits_ne_sign
    {digits : List Char}
    (proper : IsDigits digits)
    {sign : Char}
    (noDigit : Decimal.isDigit sign = false)
    (others : List Char) :
    digits ≠ sign :: others := by
  rintro rfl
  simp [proper.all sign (by simp)] at noDigit

/-- A text with a sign taken off. -/
theorem exists_minus
    (cs : List Char) :
    ∃ negative unsigned, cs = minus negative ++ unsigned ∧
      (negative = false → ∀ others, unsigned ≠ '-' :: others) := by
  by_cases signed : ∃ others, cs = '-' :: others
  · obtain ⟨others, rfl⟩ := signed
    exact ⟨true, others, rfl, by simp⟩
  · exact ⟨false, cs, rfl, fun _ others shape => signed ⟨others, shape⟩⟩

/-- An integer is its sign and all the digits behind it. -/
theorem scanInteger?_minus
    {negative : Bool}
    {unsigned : List Char}
    (noSign : negative = false → ∀ others, unsigned ≠ '-' :: others) :
    scanInteger? (minus negative ++ unsigned) =
      match unsigned.takeWhile Decimal.isDigit with
      | [] => none
      | digits => some (minus negative ++ digits, unsigned.dropWhile Decimal.isDigit) := by
  cases negative with
  | true => rfl
  | false => exact scanInteger?.eq_2 _ (noSign rfl)

/-- Digits behind an optional minus sign are taken as a whole. -/
theorem scanInteger?_eq_some_iff
    {text : List Char} :
    scanInteger? cs = some (text, rest) ↔
      ∃ negative digits, text = minus negative ++ digits ∧ IsDigits digits ∧
        cs = text ++ rest ∧ Text.Stops Decimal.isDigit rest := by
  constructor
  · intro found
    obtain ⟨negative, unsigned, rfl, noSign⟩ := exists_minus cs
    rw [scanInteger?_minus noSign] at found
    split at found
    · cases found
    · rename_i digits noDigits
      cases found
      obtain ⟨all, shape, stops⟩ := run_iff.mp ⟨rfl, rfl⟩
      refine ⟨negative, _, rfl, ⟨fun empty => noDigits empty, all⟩, ?_, stops⟩
      rw [List.append_assoc, ← shape]
  · rintro ⟨negative, digits, rfl, proper, rfl, stops⟩
    rw [List.append_assoc, scanInteger?_minus fun _ => proper.append_ne,
      Text.takeWhile_run proper.all stops, Text.dropWhile_run proper.all stops]
    obtain ⟨c, others, rfl⟩ := List.exists_cons_of_ne_nil proper.some
    rfl

/-- The characters of a number with a fraction. -/
def Fraction.text
    (parts : Fraction) :
    List Char :=
  minus parts.negative ++ (parts.whole ++ '.' :: parts.fraction)

/-- Whether there are digits on both sides of the point. -/
structure Fraction.Proper
    (parts : Fraction) :
    Prop where
  whole : IsDigits parts.whole
  fraction : IsDigits parts.fraction

/-- A real is its sign, the digits behind it, a point and the digits behind this. -/
theorem scanReal?_minus
    {negative : Bool}
    {unsigned : List Char}
    (noSign : negative = false → ∀ others, unsigned ≠ '-' :: others) :
    scanReal? (minus negative ++ unsigned) =
      match unsigned.takeWhile Decimal.isDigit, unsigned.dropWhile Decimal.isDigit with
      | [], _ => none
      | whole, '.' :: rest =>
          match rest.takeWhile Decimal.isDigit with
          | [] => none
          | fraction => some (⟨negative, whole, fraction⟩, rest.dropWhile Decimal.isDigit)
      | _, _ => none := by
  cases negative with
  | true => rfl
  | false => exact scanReal?.eq_2 _ (noSign rfl)

/-- Digits, a point and digits behind an optional minus sign are taken as a whole. -/
theorem scanReal?_eq_some_iff
    {parts : Fraction} :
    scanReal? cs = some (parts, rest) ↔
      parts.Proper ∧ cs = parts.text ++ rest ∧ Text.Stops Decimal.isDigit rest := by
  constructor
  · intro found
    obtain ⟨negative, unsigned, rfl, noSign⟩ := exists_minus cs
    rw [scanReal?_minus noSign] at found
    split at found
    · cases found
    · rename_i after shape noWhole
      split at found
      · cases found
      · rename_i noFraction
        cases found
        obtain ⟨allWhole, shapeWhole, -⟩ := run_iff.mp ⟨rfl, shape⟩
        obtain ⟨allFraction, shapeFraction, stops⟩ := run_iff.mp ⟨rfl, rfl⟩
        refine ⟨⟨⟨noWhole, allWhole⟩, ⟨noFraction, allFraction⟩⟩, ?_, stops⟩
        simp only [Fraction.text, List.append_assoc, List.cons_append]
        rw [← shapeFraction, ← shapeWhole]
    · cases found
  · rintro ⟨proper, rfl, stops⟩
    have pointStops : Text.Stops Decimal.isDigit ('.' :: (parts.fraction ++ rest)) := by
      simp only [Text.stops_cons]
      decide
    rw [Fraction.text, List.append_assoc, List.append_assoc, List.cons_append,
      scanReal?_minus fun _ => proper.whole.append_ne,
      Text.takeWhile_run proper.whole.all pointStops,
      Text.dropWhile_run proper.whole.all pointStops]
    have taken := Text.takeWhile_run proper.fraction.all stops
    have dropped := Text.dropWhile_run proper.fraction.all stops
    obtain ⟨negative, whole, fraction⟩ := parts
    obtain ⟨c, others, rfl⟩ := List.exists_cons_of_ne_nil proper.whole.some
    obtain ⟨d, more, rfl⟩ := List.exists_cons_of_ne_nil proper.fraction.some
    simp only [taken, dropped]

/-- Quoted characters end at the first quote that is not doubled. -/
theorem scanQuoted?_eq_some_iff
    {quote : Char}
    {value : List Char} :
    scanQuoted? quote cs = some (value, rest) ↔
      cs = Expr.doubled quote value ++ quote :: rest ∧ Text.Stops (· == quote) rest := by
  constructor
  · intro found
    fun_induction scanQuoted? quote cs generalizing value with
    | case1 => cases found
    | case2 =>
        cases found
        simp [Expr.doubled]
    | case3 => cases found
    | case4 others inductionHypothesis =>
        obtain ⟨⟨inner, after⟩, read, shape⟩ := Option.map_eq_some_iff.mp found
        cases shape
        obtain ⟨covers, stops⟩ := inductionHypothesis read
        exact ⟨by simp [covers, Expr.doubled], stops⟩
    | case5 d others notQuote =>
        cases found
        exact ⟨by simp [Expr.doubled], by simpa using notQuote⟩
    | case6 c d others notQuote inductionHypothesis =>
        obtain ⟨⟨inner, after⟩, read, shape⟩ := Option.map_eq_some_iff.mp found
        cases shape
        obtain ⟨covers, stops⟩ := inductionHypothesis read
        exact ⟨by simp [covers, Expr.doubled, notQuote], stops⟩
  · rintro ⟨rfl, ends⟩
    exact Sql.scanQuoted?_doubled value ends

end FullTextQuery.Query
