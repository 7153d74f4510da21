import FullTextQuery.Proofs.Json.Grammar

namespace FullTextQuery.Json

open Query (IsDigits minus)

/-!
# The reader takes the grammar

A text spells a document exactly if it is read as that document.  What is read was spelled,
by induction on the steps of the reader; what is spelled is read, by induction on the
derivation, since no number goes on into what may follow it and every step leaves enough fuel
for the shorter text behind it.
-/

variable {cs rest found : List Char}

/-- Whether a number may go on with a character. -/
def isNumberChar
    (c : Char) :
    Bool :=
  Decimal.isDigit c || c == '.' || c == 'e' || c == 'E'

section Blanks

/-- What is skipped is blank. -/
theorem blank_skipSpace
    (cs : List Char) :
    Blank cs (skipSpace cs) :=
  ⟨cs.takeWhile isJsonSpace, List.takeWhile_append_dropWhile.symm,
    fun _ member => List.mem_takeWhile_imp member⟩

/-- All white space is skipped. -/
theorem skipSpace_of_blank
    (blank : Blank cs rest)
    (stops : Text.Stops isJsonSpace rest) :
    skipSpace cs = rest := by
  obtain ⟨blanks, rfl, all⟩ := blank
  exact Text.dropWhile_run all stops

/-- Behind blanks there are no more characters. -/
theorem length_le_of_blank
    (blank : Blank cs rest) :
    rest.length ≤ cs.length := by
  obtain ⟨blanks, rfl, -⟩ := blank
  simp

/-- Neither white space nor what follows it goes on with a number. -/
theorem stops_of_blank
    (blank : Blank cs rest)
    (stops : Text.Stops isNumberChar rest) :
    Text.Stops isNumberChar cs := by
  obtain ⟨blanks, rfl, all⟩ := blank
  cases blanks with
  | nil => exact stops
  | cons c others =>
      have isSpace := all c List.mem_cons_self
      simp only [isJsonSpace, Bool.or_eq_true, beq_iff_eq] at isSpace
      rcases isSpace with ((rfl | rfl) | rfl) | rfl <;> exact Text.stops_cons.mpr rfl

end Blanks

section Quoted

/-- What is read of a quoted text; behind a first half the other one stands in front. -/
def Takes : Option Nat → List Char → List Char → List Char → Prop
  | none, cs, found, rest => Quoted cs found rest
  | some high, cs, found, rest =>
      ∃ e f g h low more others, cs = '\\' :: 'u' :: e :: f :: g :: h :: more ∧
        hexQuad? e f g h = some low ∧ IsLow low ∧
        found = Char.ofNat (0x10000 + (high - 0xD800) * 0x400 + (low - 0xDC00)) :: others ∧
        Quoted more others rest

/-- What is read was quoted. -/
theorem takes_of_readText
    (high : Option Nat)
    (cs : List Char) :
    ∀ found rest, readText high cs = some (found, rest) → Takes high cs found rest := by
  fun_induction readText high cs with
  | case1 high => simp
  | case2 high rest isHalf => simp
  | case3 high rest noHalf =>
      rintro _ _ ⟨⟩
      obtain rfl : high = none := by simpa using noHalf
      exact .close
  | case4 a b c d rest unit isUnit isHigh inductionHypothesis =>
      intro found behind read
      obtain ⟨e, f, g, h, low, more, others, rfl, isLowUnit, isLow, rfl, quoted⟩ :=
        inductionHypothesis found behind read
      exact .pair isUnit isHigh isLowUnit isLow quoted
  | case5 => simp
  | case6 a b c d rest unit isUnit notHigh notLow inductionHypothesis =>
      intro found behind read
      obtain ⟨⟨others, _⟩, quoted, ⟨⟩⟩ := Option.map_eq_some_iff.mp read
      exact .unit isUnit notHigh notLow (inductionHypothesis _ _ quoted)
  | case7 a b c d rest unit lead isUnit isLow _ inductionHypothesis =>
      intro found behind read
      obtain ⟨⟨others, _⟩, quoted, ⟨⟩⟩ := Option.map_eq_some_iff.mp read
      exact ⟨a, b, c, d, unit, rest, others, rfl, isUnit, isLow, rfl,
        inductionHypothesis _ _ quoted⟩
  | case8 => simp
  | case9 => simp
  | case10 => simp
  | case11 high letter rest _ noHalf c isEscape inductionHypothesis =>
      intro found behind read
      obtain rfl : high = none := by simpa using noHalf
      obtain ⟨⟨others, _⟩, quoted, ⟨⟩⟩ := Option.map_eq_some_iff.mp read
      exact .escape isEscape (inductionHypothesis _ _ quoted)
  | case12 => simp
  | case13 => simp
  | case14 high c rest notQuote _ _ isPlain inductionHypothesis =>
      intro found behind read
      simp only [Bool.or_eq_true, decide_eq_true_eq, beq_iff_eq, not_or] at isPlain
      obtain ⟨⟨noHalf, notControl⟩, notEscape⟩ := isPlain
      obtain rfl : high = none := by simpa using noHalf
      obtain ⟨⟨others, _⟩, quoted, ⟨⟩⟩ := Option.map_eq_some_iff.mp read
      exact .plain (by omega) notQuote notEscape (inductionHypothesis _ _ quoted)

/-- What is quoted is read. -/
theorem readText_of_quoted
    (quoted : Quoted cs found rest) :
    readText none cs = some (found, rest) := by
  induction quoted with
  | close => rfl
  | @plain c cs _ _ notControl notQuote notEscape _ inductionHypothesis =>
      have isPlain : ((none : Option Nat).isSome || decide (c.toNat < 0x20) || c == '\\') =
          false := by
        simp [notEscape, notControl]
      rw [readText.eq_7 _ _ _ notQuote (by simp [notEscape]) (by simp [notEscape]), isPlain,
        inductionHypothesis]
      rfl
  | @escape letter c cs _ _ isEscape _ inductionHypothesis =>
      have notUnit : letter ≠ 'u' := by
        rintro rfl
        simp [simpleEscape?] at isEscape
      rw [readText.eq_6 _ _ _ (fun _ _ _ _ _ isUnit => absurd isUnit notUnit), isEscape,
        inductionHypothesis]
      rfl
  | unit isUnit notHigh notLow _ inductionHypothesis =>
      rw [readText.eq_3 _ _ _ _ _ _ isUnit, if_neg notHigh, if_neg notLow, inductionHypothesis]
      rfl
  | pair isHighUnit isHigh isLowUnit isLow _ inductionHypothesis =>
      rw [readText.eq_3 _ _ _ _ _ _ isHighUnit, if_pos isHigh,
        readText.eq_4 _ _ _ _ _ _ _ isLowUnit, if_pos isLow, inductionHypothesis]
      rfl

end Quoted

section Numbers

variable {whole fraction : List Char} {power? : Option Int} {value : Json}

/-- A run of digits that is there. -/
theorem digits_of_takeWhile
    {digits : List Char}
    (taken : cs.takeWhile Decimal.isDigit = digits)
    (someDigit : digits ≠ []) :
    IsDigits digits ∧ cs = digits ++ cs.dropWhile Decimal.isDigit := by
  obtain ⟨all, shape, -⟩ := Query.run_iff.mp ⟨taken, rfl⟩
  exact ⟨⟨someDigit, all⟩, shape⟩

/-- A whole number that is read is one of the grammar. -/
theorem whole_of_readWhole
    (read : readWhole cs = some (whole, rest)) :
    IsWhole whole ∧ cs = whole ++ rest := by
  unfold readWhole at read
  split at read
  · simp at read
  · simp at read
  · rename_i noDigits notZero
    obtain ⟨rfl, rfl⟩ := Prod.mk.inj (Option.some.inj read)
    obtain ⟨proper, shape⟩ := digits_of_takeWhile rfl noDigits
    refine ⟨⟨proper, ?_⟩, shape⟩
    cases isTaken : cs.takeWhile Decimal.isDigit with
    | nil => exact .inr (by simp)
    | cons first others =>
        cases others with
        | nil => by_cases isZero : first = '0' <;> simp [isZero]
        | cons second others =>
            have notFirst : first ≠ '0' := by
              rintro rfl
              exact notZero _ _ isTaken
            exact .inr (by simpa using notFirst)

/-- A whole number of the grammar is read where no digit follows. -/
theorem readWhole_of_whole
    (isWhole : IsWhole whole)
    (stops : Text.Stops Decimal.isDigit rest) :
    readWhole (whole ++ rest) = some (whole, rest) := by
  obtain ⟨proper, noZero⟩ := isWhole
  rw [readWhole, Text.takeWhile_run proper.all stops, Text.dropWhile_run proper.all stops]
  split
  · exact absurd rfl proper.some
  · simp at noZero
  · rfl

/-- A fraction that is read is one of the grammar. -/
theorem fraction_of_readFraction
    (read : readFraction cs = some (fraction, rest)) :
    Fraction cs fraction rest := by
  unfold readFraction at read
  split at read
  · split at read
    · simp at read
    · rename_i behind _ noDigits
      obtain ⟨isTaken, isRest⟩ := Prod.mk.inj (Option.some.inj read)
      obtain ⟨proper, shape⟩ := digits_of_takeWhile isTaken (isTaken ▸ noDigits)
      rw [shape, isRest]
      exact .present proper
  · cases read
    exact .absent

/-- A fraction of the grammar is read where neither a digit nor a point follows. -/
theorem readFraction_of_fraction
    (spelled : Fraction cs fraction rest)
    (stops : Text.Stops Decimal.isDigit rest)
    (noPoint : ∀ others, rest ≠ '.' :: others) :
    readFraction cs = some (fraction, rest) := by
  cases spelled with
  | absent =>
      unfold readFraction
      split
      · exact absurd rfl (noPoint _)
      · rfl
  | present proper =>
      rw [readFraction, Text.takeWhile_run proper.all stops, Text.dropWhile_run proper.all stops]
      split
      · exact absurd rfl proper.some
      · rfl

/-- The digits that are taken behind the sign of an exponent spell the power. -/
theorem exponent_of_takeExponent
    {negative : Bool}
    {power : Int}
    (read : Decimal.exponent?.takeExponent negative cs = some (power, rest)) :
    ∃ digits, IsDigits digits ∧ cs = digits ++ rest ∧
      power = signedBy negative digits := by
  unfold Decimal.exponent?.takeExponent at read
  split at read
  · simp at read
  · rename_i noDigits
    obtain ⟨rfl, rfl⟩ := Prod.mk.inj (Option.some.inj read)
    obtain ⟨proper, shape⟩ := digits_of_takeWhile rfl noDigits
    exact ⟨_, proper, shape, rfl⟩

/-- Digits behind the sign of an exponent are all taken. -/
theorem takeExponent_of_digits
    {digits : List Char}
    (proper : IsDigits digits)
    (stops : Text.Stops Decimal.isDigit rest)
    (negative : Bool) :
    Decimal.exponent?.takeExponent negative (digits ++ rest) =
      some (signedBy negative digits, rest) := by
  rw [Decimal.exponent?.takeExponent, Text.takeWhile_run proper.all stops,
    Text.dropWhile_run proper.all stops]
  split
  · exact absurd rfl proper.some
  · rfl

/-- An exponent that is read is one of the grammar. -/
theorem exponent_of_readExponent
    (read : readExponent cs = some (power?, rest)) :
    Exponent cs power? rest := by
  unfold readExponent at read
  split at read
  · rename_i mark behind
    split at read
    · rename_i isMark
      obtain ⟨⟨power, _⟩, found, isFound⟩ := Option.map_eq_some_iff.mp read
      obtain ⟨rfl, rfl⟩ := Prod.mk.inj isFound
      unfold Decimal.exponent? at found
      split at found
      all_goals
        obtain ⟨digits, proper, rfl, rfl⟩ := exponent_of_takeExponent found
      · exact .present isMark .plus proper
      · exact .present isMark .minus proper
      · exact .present isMark .absent proper
    · cases read
      exact .absent
  · cases read
    exact .absent

/-- An exponent of the grammar is read. -/
theorem readExponent_of_exponent
    (spelled : Exponent cs power? rest)
    (stops : Text.Stops isNumberChar rest) :
    readExponent cs = some (power?, rest) := by
  cases spelled with
  | absent =>
      cases cs with
      | nil => rfl
      | cons c others =>
          have noMark : ¬ (c = 'e' ∨ c = 'E') := by
            rintro (rfl | rfl) <;> simp [isNumberChar] at stops
          rw [readExponent, if_neg noMark]
  | @present mark sign digits _ negative isMark isSign proper =>
      have noDigit : Text.Stops Decimal.isDigit rest := by
        intro c isHead
        have noNumber := stops c isHead
        simp only [isNumberChar, Bool.or_eq_false_iff] at noNumber
        exact noNumber.1.1.1
      have read : Decimal.exponent? (sign ++ (digits ++ rest)) =
          some (signedBy negative digits, rest) := by
        cases isSign with
        | plus => exact takeExponent_of_digits proper noDigit false
        | minus => exact takeExponent_of_digits proper noDigit true
        | absent =>
            obtain ⟨first, others, rfl⟩ := List.exists_cons_of_ne_nil proper.some
            have isDigit := proper.all first List.mem_cons_self
            rw [List.nil_append, ← takeExponent_of_digits proper noDigit false]
            refine Decimal.exponent?.eq_3 _ ?_ ?_
            · rintro _ ⟨⟩
              simp [Decimal.isDigit] at isDigit
            · rintro _ ⟨⟩
              simp [Decimal.isDigit] at isDigit
      rw [readExponent, if_pos isMark, read]
      rfl

/-- The sign of a number is taken off. -/
theorem readNumber_minus
    {negative : Bool}
    {unsigned : List Char}
    (noSign : negative = false → ∀ others, unsigned ≠ '-' :: others) :
    readNumber (minus negative ++ unsigned) = do
      let (whole, rest) ← readWhole unsigned
      let (fraction, rest) ← readFraction rest
      let (power?, rest) ← readExponent rest
      let value ← numberOf? negative whole fraction power?
      return (value, rest) := by
  cases negative with
  | true => rfl
  | false =>
      unfold readNumber minus
      dsimp only [List.nil_append]
      split
      · exact absurd rfl (noSign rfl _)
      · rfl

/-- A number that is read is one of the grammar. -/
theorem number_of_readNumber
    (read : readNumber cs = some (value, rest)) :
    Number cs value rest := by
  obtain ⟨negative, unsigned, rfl, noSign⟩ := Query.exists_minus cs
  rw [readNumber_minus noSign] at read
  obtain ⟨⟨whole, afterWhole⟩, wholeRead, read⟩ := Option.bind_eq_some_iff.mp read
  obtain ⟨⟨fraction, afterFraction⟩, fractionRead, read⟩ := Option.bind_eq_some_iff.mp read
  obtain ⟨⟨power?, behind⟩, exponentRead, read⟩ := Option.bind_eq_some_iff.mp read
  obtain ⟨value, inRange, read⟩ := Option.bind_eq_some_iff.mp read
  cases read
  obtain ⟨isWhole, rfl⟩ := whole_of_readWhole wholeRead
  rw [← List.append_assoc]
  exact .mk isWhole (fraction_of_readFraction fractionRead) (exponent_of_readExponent exponentRead)
    inRange

/-- Neither an exponent nor what follows a number goes on with digits or a point. -/
theorem Exponent.stops
    (spelled : Exponent cs power? rest)
    (stops : Text.Stops isNumberChar rest) :
    Text.Stops Decimal.isDigit cs ∧ ∀ others, cs ≠ '.' :: others := by
  cases spelled with
  | absent =>
      refine ⟨fun c isHead => ?_, ?_⟩
      · have noNumber := stops c isHead
        simp only [isNumberChar, Bool.or_eq_false_iff] at noNumber
        exact noNumber.1.1.1
      · rintro others rfl
        simp [isNumberChar] at stops
  | present isMark _ _ =>
      rcases isMark with rfl | rfl <;> simp [Decimal.isDigit]

theorem Fraction.stops
    (spelled : Fraction cs fraction rest)
    (stops : Text.Stops Decimal.isDigit rest) :
    Text.Stops Decimal.isDigit cs := by
  cases spelled with
  | absent => exact stops
  | present _ => simp [Decimal.isDigit]

/-- A number of the grammar is read, where it stops. -/
theorem readNumber_of_number
    (spelled : Number cs value rest)
    (stops : Text.Stops isNumberChar rest) :
    readNumber cs = some (value, rest) := by
  obtain ⟨isWhole, isFraction, isExponent, inRange⟩ := spelled
  obtain ⟨noDigit, noPoint⟩ := isExponent.stops stops
  rw [List.append_assoc, readNumber_minus fun _ => isWhole.proper.append_ne]
  exact Option.bind_eq_some_iff.mpr ⟨_, readWhole_of_whole isWhole (isFraction.stops noDigit),
    Option.bind_eq_some_iff.mpr ⟨_, readFraction_of_fraction isFraction noDigit noPoint,
      Option.bind_eq_some_iff.mpr ⟨_, readExponent_of_exponent isExponent stops,
        Option.bind_eq_some_iff.mpr ⟨_, inRange, rfl⟩⟩⟩⟩

end Numbers

section Documents

variable {fuel depth : Nat} {value : Json} {items : List Json} {members : List (String × Json)}

/-- A word is taken off exactly where it stands. -/
theorem behind?_eq_some_iff
    {word : List Char} :
    behind? word cs = some rest ↔ cs = word ++ rest := by
  rw [behind?]
  constructor
  · intro taken
    split at taken
    · rename_i isFront
      obtain ⟨behind, rfl⟩ := List.isPrefixOf_iff_prefix.mp isFront
      simpa using taken
    · simp at taken
  · rintro rfl
    simp

/-- What one step of the reader takes is spelled, if what it goes on with is. -/
theorem spells_of_readValue
    (itemsSpelled : ∀ depth cs items rest, readItems fuel depth cs = some (items, rest) →
      SpellsItems depth cs items rest)
    (membersSpelled : ∀ depth cs members rest, readMembers fuel depth cs = some (members, rest) →
      SpellsMembers depth cs members rest)
    (read : readValue (fuel + 1) depth cs = some (value, rest)) :
    Spells depth cs value rest := by
  have blank := blank_skipSpace cs
  unfold readValue at read
  split at read
  · simp at read
  · rename_i quoted isText
    obtain ⟨⟨found, _⟩, isQuoted, ⟨⟩⟩ := Option.map_eq_some_iff.mp read
    exact .text (isText ▸ blank) (takes_of_readText none _ _ _ isQuoted)
  · rename_i more isArray
    split at read
    · simp at read
    · split at read
      · rename_i after isEmpty
        cases read
        exact .noItems (isArray ▸ blank) (isEmpty ▸ blank_skipSpace more)
      · obtain ⟨⟨found, _⟩, areItems, ⟨⟩⟩ := Option.map_eq_some_iff.mp read
        exact .array (isArray ▸ blank) (itemsSpelled _ _ _ _ areItems)
  · rename_i more isObject
    split at read
    · simp at read
    · split at read
      · rename_i after isEmpty
        cases read
        exact .noMembers (isObject ▸ blank) (isEmpty ▸ blank_skipSpace more)
      · obtain ⟨⟨found, _⟩, areMembers, ⟨⟩⟩ := Option.map_eq_some_iff.mp read
        exact .object (isObject ▸ blank) (membersSpelled _ _ _ _ areMembers)
  · rename_i c more _ _ _ isOther
    rw [isOther] at blank
    split at read
    · rename_i isTrue
      obtain ⟨_, isWord, ⟨⟩⟩ := Option.map_eq_some_iff.mp read
      rw [isTrue, behind?_eq_some_iff.mp isWord] at blank
      exact .word (.tail _ (.head _)) blank
    · split at read
      · rename_i isFalse
        obtain ⟨_, isWord, ⟨⟩⟩ := Option.map_eq_some_iff.mp read
        rw [isFalse, behind?_eq_some_iff.mp isWord] at blank
        exact .word (.tail _ (.tail _ (.head _))) blank
      · split at read
        · rename_i isNull
          obtain ⟨_, isWord, ⟨⟩⟩ := Option.map_eq_some_iff.mp read
          rw [isNull, behind?_eq_some_iff.mp isWord] at blank
          exact .word (.head _) blank
        · exact .number blank (number_of_readNumber read)

/-- Items that are read are spelled, if values and items that are read with less fuel are. -/
theorem spells_of_readItems
    (spelled : ∀ depth cs value rest, readValue fuel depth cs = some (value, rest) →
      Spells depth cs value rest)
    (itemsSpelled : ∀ depth cs items rest, readItems fuel depth cs = some (items, rest) →
      SpellsItems depth cs items rest)
    (read : readItems (fuel + 1) depth cs = some (items, rest)) :
    SpellsItems depth cs items rest := by
  unfold readItems at read
  split at read
  · simp at read
  · rename_i item more isItem
    have blank := blank_skipSpace more
    split at read
    · rename_i isEnd
      cases read
      exact .last (spelled _ _ _ _ isItem) (isEnd ▸ blank)
    · rename_i isComma
      obtain ⟨⟨found, _⟩, areItems, ⟨⟩⟩ := Option.map_eq_some_iff.mp read
      exact .more (spelled _ _ _ _ isItem) (isComma ▸ blank) (itemsSpelled _ _ _ _ areItems)
    · simp at read

/-- Members that are read are spelled, if values and members that are read with less fuel are. -/
theorem spells_of_readMembers
    (spelled : ∀ depth cs value rest, readValue fuel depth cs = some (value, rest) →
      Spells depth cs value rest)
    (membersSpelled : ∀ depth cs members rest, readMembers fuel depth cs = some (members, rest) →
      SpellsMembers depth cs members rest)
    (read : readMembers (fuel + 1) depth cs = some (members, rest)) :
    SpellsMembers depth cs members rest := by
  have blank := blank_skipSpace cs
  unfold readMembers at read
  split at read
  · rename_i quoted isName
    split at read
    · simp at read
    · rename_i name behind isQuoted
      have behindName := blank_skipSpace behind
      split at read
      · rename_i text isColon
        split at read
        · simp at read
        · rename_i value more isValue
          have behindValue := blank_skipSpace more
          split at read
          · rename_i isEnd
            cases read
            exact .last (isName ▸ blank) (takes_of_readText none _ _ _ isQuoted)
              (isColon ▸ behindName) (spelled _ _ _ _ isValue) (isEnd ▸ behindValue)
          · rename_i isComma
            obtain ⟨⟨found, _⟩, areMembers, ⟨⟩⟩ := Option.map_eq_some_iff.mp read
            exact .more (isName ▸ blank) (takes_of_readText none _ _ _ isQuoted)
              (isColon ▸ behindName) (spelled _ _ _ _ isValue) (isComma ▸ behindValue)
              (membersSpelled _ _ _ _ areMembers)
          · simp at read
      · simp at read
  · simp at read

/-- What is read with some fuel is spelled. -/
theorem spells_of_read
    (fuel : Nat) :
    (∀ depth cs value rest, readValue fuel depth cs = some (value, rest) →
      Spells depth cs value rest) ∧
    (∀ depth cs items rest, readItems fuel depth cs = some (items, rest) →
      SpellsItems depth cs items rest) ∧
    ∀ depth cs members rest, readMembers fuel depth cs = some (members, rest) →
      SpellsMembers depth cs members rest := by
  induction fuel with
  | zero => simp [readValue, readItems, readMembers]
  | succ fuel inductionHypothesis =>
      obtain ⟨spelled, itemsSpelled, membersSpelled⟩ := inductionHypothesis
      exact ⟨fun _ _ _ _ => spells_of_readValue itemsSpelled membersSpelled,
        fun _ _ _ _ => spells_of_readItems spelled itemsSpelled,
        fun _ _ _ _ => spells_of_readMembers spelled membersSpelled⟩

/-- A word has a first character, and no white space. -/
theorem exists_head_of_word
    {word : List Char}
    {document : Json}
    (isWord : (word, document) ∈ words) :
    ∃ c others, word = c :: others ∧ isJsonSpace c = false ∧ c ≠ ']' := by
  simp only [words, List.mem_cons, Prod.mk.injEq, List.not_mem_nil, or_false] at isWord
  rcases isWord with ⟨rfl, -⟩ | ⟨rfl, -⟩ | ⟨rfl, -⟩
  · exact ⟨'n', "ull".toList, rfl, rfl, by decide⟩
  · exact ⟨'t', "rue".toList, rfl, rfl, by decide⟩
  · exact ⟨'f', "alse".toList, rfl, rfl, by decide⟩

/-- A quoted text takes characters. -/
theorem length_lt_of_quoted
    (quoted : Quoted cs found rest) :
    rest.length < cs.length := by
  induction quoted with
  | close => simp
  | plain _ _ _ _ inductionHypothesis => simp; omega
  | escape _ _ inductionHypothesis => simp; omega
  | unit _ _ _ _ inductionHypothesis => simp; omega
  | pair _ _ _ _ _ inductionHypothesis => simp; omega

/-- A number takes characters. -/
theorem length_lt_of_number
    (spelled : Number cs value rest) :
    rest.length < cs.length := by
  obtain ⟨isWhole, isFraction, isExponent, -⟩ := spelled
  have someDigit := List.length_pos_iff.mpr isWhole.proper.some
  cases isFraction <;> cases isExponent <;> simp <;> omega

mutual

/-- A document is not empty. -/
theorem length_lt_of_spells :
    ∀ {depth cs value rest}, Spells depth cs value rest → rest.length < cs.length
  | _, _, _, _, .word isWord blank => by
      obtain ⟨c, others, rfl, -, -⟩ := exists_head_of_word isWord
      have := length_le_of_blank blank
      simp only [List.cons_append, List.length_cons, List.length_append] at this
      omega
  | _, _, _, _, .number blank isNumber =>
      (length_lt_of_number isNumber).trans_le (length_le_of_blank blank)
  | _, _, _, _, .text blank isQuoted =>
      (Nat.lt_succ_of_lt (length_lt_of_quoted isQuoted)).trans_le (length_le_of_blank blank)
  | _, _, _, _, .noItems blank blankEnd | _, _, _, _, .noMembers blank blankEnd =>
      (Nat.lt_succ_of_lt (length_le_of_blank blankEnd)).trans_le (length_le_of_blank blank)
  | _, _, _, _, .array blank spelled =>
      (Nat.lt_succ_of_lt (length_lt_of_spellsItems spelled)).trans_le (length_le_of_blank blank)
  | _, _, _, _, .object blank spelled =>
      (Nat.lt_succ_of_lt (length_lt_of_spellsMembers spelled)).trans_le (length_le_of_blank blank)

/-- The items of an array and its end take characters. -/
theorem length_lt_of_spellsItems :
    ∀ {depth cs items rest}, SpellsItems depth cs items rest → rest.length < cs.length
  | _, _, _, _, .last spelled blank =>
      Nat.lt_trans (length_le_of_blank blank) (length_lt_of_spells spelled)
  | _, _, _, _, .more spelled blank othersSpelled =>
      Nat.lt_trans (Nat.lt_trans (length_lt_of_spellsItems othersSpelled)
        (length_le_of_blank blank)) (length_lt_of_spells spelled)

/-- The members of an object and its end take characters. -/
theorem length_lt_of_spellsMembers :
    ∀ {depth cs members rest}, SpellsMembers depth cs members rest → rest.length < cs.length
  | _, _, _, _, .last blank isQuoted blankColon spelled blankEnd => by
      have := length_le_of_blank blank
      have := length_lt_of_quoted isQuoted
      have := length_le_of_blank blankColon
      have := length_lt_of_spells spelled
      have := length_le_of_blank blankEnd
      simp only [List.length_cons] at *
      omega
  | _, _, _, _, .more blank isQuoted blankColon spelled blankComma othersSpelled => by
      have := length_le_of_blank blank
      have := length_lt_of_quoted isQuoted
      have := length_le_of_blank blankColon
      have := length_lt_of_spells spelled
      have := length_le_of_blank blankComma
      have := length_lt_of_spellsMembers othersSpelled
      simp only [List.length_cons] at *
      omega

end

/-- A number begins with a digit or with its sign. -/
theorem exists_head_of_number
    (spelled : Number cs value rest) :
    ∃ c others, cs = c :: others ∧ (Decimal.isDigit c = true ∨ c = '-') := by
  obtain ⟨isWhole, -, -, -⟩ := spelled
  rename_i negative whole _ _ _ _
  obtain ⟨first, others, rfl⟩ := List.exists_cons_of_ne_nil isWhole.proper.some
  cases negative with
  | true => exact ⟨'-', _, rfl, .inr rfl⟩
  | false => exact ⟨first, _, rfl, .inl (isWhole.proper.all first List.mem_cons_self)⟩

/-- A number begins with no other sign, and not with white space. -/
theorem ne_of_startsNumber
    {c sign : Char}
    (starts : Decimal.isDigit c = true ∨ c = '-')
    (noDigit : Decimal.isDigit sign = false)
    (noMinus : sign ≠ '-') :
    c ≠ sign := by
  rintro rfl
  rcases starts with isDigit | isMinus
  · simp [noDigit] at isDigit
  · exact noMinus isMinus

theorem isJsonSpace_of_startsNumber
    {c : Char}
    (starts : Decimal.isDigit c = true ∨ c = '-') :
    isJsonSpace c = false := by
  have blank := ne_of_startsNumber starts (show Decimal.isDigit ' ' = false from rfl) (by decide)
  have tab := ne_of_startsNumber starts (show Decimal.isDigit '\t' = false from rfl) (by decide)
  have feed := ne_of_startsNumber starts (show Decimal.isDigit '\n' = false from rfl) (by decide)
  have back := ne_of_startsNumber starts (show Decimal.isDigit '\r' = false from rfl) (by decide)
  simp [isJsonSpace, blank, tab, feed, back]

/-- What a reader does not take for one of the other documents is a number. -/
theorem readValue_of_number
    {c : Char}
    {others : List Char}
    (isHead : skipSpace cs = c :: others)
    (starts : Decimal.isDigit c = true ∨ c = '-') :
    readValue (fuel + 1) depth cs = readNumber (c :: others) := by
  rw [readValue, isHead]
  split
  · simp_all
  · rename_i isQuote
    exact absurd (List.cons.inj isQuote).1 (ne_of_startsNumber starts rfl (by decide))
  · rename_i isBracket
    exact absurd (List.cons.inj isBracket).1 (ne_of_startsNumber starts rfl (by decide))
  · rename_i isBrace
    exact absurd (List.cons.inj isBrace).1 (ne_of_startsNumber starts rfl (by decide))
  · rename_i isOther
    obtain ⟨rfl, rfl⟩ := List.cons.inj isOther
    rw [if_neg (ne_of_startsNumber starts rfl (by decide)),
      if_neg (ne_of_startsNumber starts rfl (by decide)),
      if_neg (ne_of_startsNumber starts rfl (by decide))]

/-- A word that stands for a document is read as this document. -/
theorem readValue_of_word
    {word : List Char}
    {document : Json}
    (isWord : (word, document) ∈ words)
    (isHead : skipSpace cs = word ++ rest) :
    readValue (fuel + 1) depth cs = some (document, rest) := by
  rw [readValue, isHead]
  simp only [words, List.mem_cons, Prod.mk.injEq, List.not_mem_nil, or_false] at isWord
  rcases isWord with ⟨rfl, rfl⟩ | ⟨rfl, rfl⟩ | ⟨rfl, rfl⟩
  · change (behind? "ull".toList ("ull".toList ++ rest)).map (Json.null, ·) = _
    rw [behind?_eq_some_iff.mpr rfl]
    rfl
  · change (behind? "rue".toList ("rue".toList ++ rest)).map (Json.bool true, ·) = _
    rw [behind?_eq_some_iff.mpr rfl]
    rfl
  · change (behind? "alse".toList ("alse".toList ++ rest)).map (Json.bool false, ·) = _
    rw [behind?_eq_some_iff.mpr rfl]
    rfl

/-- Behind a bracket an array ends at once, or has items. -/
theorem readValue_of_bracket
    {more : List Char}
    (isHead : skipSpace cs = '[' :: more) :
    readValue (fuel + 1) (depth + 1) cs =
      match skipSpace more with
      | ']' :: after => some (.array [], after)
      | _ => (readItems fuel depth more).map fun found => (.array found.1, found.2) := by
  rw [readValue, isHead]
  rfl

/-- Behind a brace an object ends at once, or has members. -/
theorem readValue_of_brace
    {more : List Char}
    (isHead : skipSpace cs = '\x7b' :: more) :
    readValue (fuel + 1) (depth + 1) cs =
      match skipSpace more with
      | '\x7d' :: after => some (.object [], after)
      | _ => (readMembers fuel depth more).map fun found => (ofMembers found.1, found.2) := by
  rw [readValue, isHead]
  rfl

theorem ne_bracket_of_blank
    {c : Char}
    {others : List Char}
    (blank : Blank cs (c :: others))
    (noSpace : isJsonSpace c = false)
    (noEnd : c ≠ ']') :
    ∀ after, skipSpace cs ≠ ']' :: after := by
  intro after
  rw [skipSpace_of_blank blank (Text.stops_cons.mpr noSpace)]
  exact fun isEnd => noEnd (List.cons.inj isEnd).1

/-- No document begins with a closing bracket. -/
theorem ne_bracket_of_spells
    (spelled : Spells depth cs value rest) :
    ∀ after, skipSpace cs ≠ ']' :: after := by
  cases spelled with
  | word isWord blank =>
      obtain ⟨c, others, rfl, noSpace, noEnd⟩ := exists_head_of_word isWord
      exact ne_bracket_of_blank blank noSpace noEnd
  | number blank isNumber =>
      obtain ⟨c, others, rfl, starts⟩ := exists_head_of_number isNumber
      exact ne_bracket_of_blank blank (isJsonSpace_of_startsNumber starts)
        (ne_of_startsNumber starts rfl (by decide))
  | text blank _ => exact ne_bracket_of_blank blank rfl (by decide)
  | noItems blank _ => exact ne_bracket_of_blank blank rfl (by decide)
  | array blank _ => exact ne_bracket_of_blank blank rfl (by decide)
  | noMembers blank _ => exact ne_bracket_of_blank blank rfl (by decide)
  | object blank _ => exact ne_bracket_of_blank blank rfl (by decide)

/-- No array ends where its items begin. -/
theorem ne_bracket_of_spellsItems
    (spelled : SpellsItems depth cs items rest) :
    ∀ after, skipSpace cs ≠ ']' :: after := by
  cases spelled with
  | last spelled _ => exact ne_bracket_of_spells spelled
  | more spelled _ _ => exact ne_bracket_of_spells spelled

/-- Members begin with the quote of a name. -/
theorem exists_quote_of_spellsMembers
    (spelled : SpellsMembers depth cs members rest) :
    ∃ quoted, skipSpace cs = '"' :: quoted := by
  cases spelled with
  | last blank _ _ _ _ => exact ⟨_, skipSpace_of_blank blank (Text.stops_cons.mpr rfl)⟩
  | more blank _ _ _ _ _ => exact ⟨_, skipSpace_of_blank blank (Text.stops_cons.mpr rfl)⟩

section Members

variable {quoted name behind spelled more : List Char}

/-- The last member is read up to the closing brace. -/
theorem readMembers_of_last
    {after : List Char}
    (blank : Blank cs ('"' :: quoted))
    (isQuoted : Quoted quoted name behind)
    (blankColon : Blank behind (':' :: spelled))
    (isValue : readValue fuel depth spelled = some (value, more))
    (isEnd : skipSpace more = '\x7d' :: after) :
    readMembers (fuel + 1) depth cs = some ([(String.ofList name, value)], after) := by
  simp only [readMembers, skipSpace_of_blank blank (Text.stops_cons.mpr rfl),
    readText_of_quoted isQuoted, skipSpace_of_blank blankColon (Text.stops_cons.mpr rfl), isValue,
    isEnd]

/-- A member with a comma behind it is put in front of the others. -/
theorem readMembers_of_more
    {others : List Char}
    (blank : Blank cs ('"' :: quoted))
    (isQuoted : Quoted quoted name behind)
    (blankColon : Blank behind (':' :: spelled))
    (isValue : readValue fuel depth spelled = some (value, more))
    (isComma : skipSpace more = ',' :: others) :
    readMembers (fuel + 1) depth cs =
      (readMembers fuel depth others).map fun found =>
        ((String.ofList name, value) :: found.1, found.2) := by
  simp only [readMembers, skipSpace_of_blank blank (Text.stops_cons.mpr rfl),
    readText_of_quoted isQuoted, skipSpace_of_blank blankColon (Text.stops_cons.mpr rfl), isValue,
    isComma]

end Members

mutual

/-- What is spelled is read, with fuel for its length. -/
theorem readValue_of_spells :
    ∀ {depth cs value rest}, Spells depth cs value rest → Text.Stops isNumberChar rest →
      ∀ {fuel}, cs.length ≤ fuel + rest.length → readValue (fuel + 1) depth cs = some (value, rest)
  | _, _, _, _, .word isWord blank, _, fuel, enough => by
      obtain ⟨c, others, rfl, noSpace, -⟩ := exists_head_of_word isWord
      exact readValue_of_word isWord (skipSpace_of_blank blank (Text.stops_cons.mpr noSpace))
  | _, _, _, _, .number blank isNumber, stops, fuel, enough => by
      obtain ⟨c, others, rfl, starts⟩ := exists_head_of_number isNumber
      have noSpace := isJsonSpace_of_startsNumber starts
      rw [readValue_of_number (skipSpace_of_blank blank (Text.stops_cons.mpr noSpace)) starts]
      exact readNumber_of_number isNumber stops
  | _, _, _, _, .text blank isQuoted, _, fuel, enough => by
      rw [readValue, skipSpace_of_blank blank (Text.stops_cons.mpr rfl)]
      exact Option.map_eq_some_iff.mpr ⟨_, readText_of_quoted isQuoted, rfl⟩
  | _, _, _, _, .noItems blank blankEnd, _, fuel, enough => by
      rw [readValue_of_bracket (skipSpace_of_blank blank (Text.stops_cons.mpr rfl)),
        skipSpace_of_blank blankEnd (Text.stops_cons.mpr rfl)]
      rfl
  | _, _, _, _, .noMembers blank blankEnd, _, fuel, enough => by
      rw [readValue_of_brace (skipSpace_of_blank blank (Text.stops_cons.mpr rfl)),
        skipSpace_of_blank blankEnd (Text.stops_cons.mpr rfl)]
      rfl
  | _, _, _, _, .array blank spelled, _, fuel, enough => by
      have shorter := length_le_of_blank blank
      have notEmpty := length_lt_of_spellsItems spelled
      rw [List.length_cons] at shorter
      obtain ⟨fuel, rfl⟩ : ∃ less, fuel = less + 1 := ⟨fuel - 1, by omega⟩
      rw [readValue_of_bracket (skipSpace_of_blank blank (Text.stops_cons.mpr rfl))]
      split
      · rename_i isEnd
        exact absurd isEnd (ne_bracket_of_spellsItems spelled _)
      · exact Option.map_eq_some_iff.mpr ⟨_, readItems_of_spells spelled (by omega), rfl⟩
  | _, _, _, _, .object blank spelled, _, fuel, enough => by
      have shorter := length_le_of_blank blank
      have notEmpty := length_lt_of_spellsMembers spelled
      rw [List.length_cons] at shorter
      obtain ⟨fuel, rfl⟩ : ∃ less, fuel = less + 1 := ⟨fuel - 1, by omega⟩
      obtain ⟨quoted, isHead⟩ := exists_quote_of_spellsMembers spelled
      rw [readValue_of_brace (skipSpace_of_blank blank (Text.stops_cons.mpr rfl)), isHead]
      exact Option.map_eq_some_iff.mpr ⟨_, readMembers_of_spells spelled (by omega), rfl⟩

/-- Items of the grammar are read, with fuel for each character that they take. -/
theorem readItems_of_spells :
    ∀ {depth cs items rest}, SpellsItems depth cs items rest →
      ∀ {fuel}, cs.length ≤ fuel + rest.length → readItems (fuel + 1) depth cs = some (items, rest)
  | _, _, _, _, .last spelled blank, fuel, enough => by
      have shorter := length_le_of_blank blank
      have notEmpty := length_lt_of_spells spelled
      rw [List.length_cons] at shorter
      obtain ⟨fuel, rfl⟩ : ∃ less, fuel = less + 1 := ⟨fuel - 1, by omega⟩
      have stops := stops_of_blank blank (Text.stops_cons.mpr rfl)
      rw [readItems, readValue_of_spells spelled stops (by omega)]
      dsimp only
      rw [skipSpace_of_blank blank (Text.stops_cons.mpr rfl)]
      rfl
  | _, _, _, _, .more spelled blank othersSpelled, fuel, enough => by
      have shorter := length_le_of_blank blank
      have notEmpty := length_lt_of_spells spelled
      have othersShorter := length_lt_of_spellsItems othersSpelled
      rw [List.length_cons] at shorter
      obtain ⟨fuel, rfl⟩ : ∃ less, fuel = less + 1 := ⟨fuel - 1, by omega⟩
      have stops := stops_of_blank blank (Text.stops_cons.mpr rfl)
      rw [readItems, readValue_of_spells spelled stops (by omega)]
      dsimp only
      rw [skipSpace_of_blank blank (Text.stops_cons.mpr rfl)]
      exact Option.map_eq_some_iff.mpr ⟨_, readItems_of_spells othersSpelled (by omega), rfl⟩

/-- Members of the grammar are read, with fuel for each character that they take. -/
theorem readMembers_of_spells :
    ∀ {depth cs members rest}, SpellsMembers depth cs members rest →
      ∀ {fuel}, cs.length ≤ fuel + rest.length →
        readMembers (fuel + 1) depth cs = some (members, rest)
  | _, _, _, _, .last blank isQuoted blankColon spelled blankEnd, fuel, enough => by
      have nameShorter := length_le_of_blank blank
      have quotedShorter := length_lt_of_quoted isQuoted
      have colonShorter := length_le_of_blank blankColon
      have notEmpty := length_lt_of_spells spelled
      have endShorter := length_le_of_blank blankEnd
      rw [List.length_cons] at nameShorter colonShorter endShorter
      obtain ⟨fuel, rfl⟩ : ∃ less, fuel = less + 1 := ⟨fuel - 1, by omega⟩
      have stops := stops_of_blank blankEnd (Text.stops_cons.mpr rfl)
      exact readMembers_of_last blank isQuoted blankColon
        (readValue_of_spells spelled stops (by omega))
        (skipSpace_of_blank blankEnd (Text.stops_cons.mpr rfl))
  | _, _, _, _, .more blank isQuoted blankColon spelled blankComma othersSpelled, fuel, enough => by
      have nameShorter := length_le_of_blank blank
      have quotedShorter := length_lt_of_quoted isQuoted
      have colonShorter := length_le_of_blank blankColon
      have notEmpty := length_lt_of_spells spelled
      have commaShorter := length_le_of_blank blankComma
      have othersShorter := length_lt_of_spellsMembers othersSpelled
      rw [List.length_cons] at nameShorter colonShorter commaShorter
      obtain ⟨fuel, rfl⟩ : ∃ less, fuel = less + 1 := ⟨fuel - 1, by omega⟩
      have stops := stops_of_blank blankComma (Text.stops_cons.mpr rfl)
      rw [readMembers_of_more blank isQuoted blankColon
        (readValue_of_spells spelled stops (by omega))
        (skipSpace_of_blank blankComma (Text.stops_cons.mpr rfl))]
      exact Option.map_eq_some_iff.mpr ⟨_, readMembers_of_spells othersSpelled (by omega), rfl⟩

end

/-- A text is read exactly as the document that it spells. -/
theorem read?_eq_some_iff
    {text : String} :
    read? text = some value ↔ IsTextOf text value := by
  unfold read? readWithin?
  dsimp only
  constructor
  · intro read
    split at read
    · rename_i value behind isRead
      split at read
      · rename_i noneLeft
        cases read
        have blank := blank_skipSpace behind
        rw [List.isEmpty_iff.mp noneLeft] at blank
        exact ⟨behind, (spells_of_read _).1 _ _ _ _ isRead, blank⟩
      · simp at read
    · simp at read
  · rintro ⟨behind, spelled, blank⟩
    rw [readValue_of_spells spelled (stops_of_blank blank Text.stops_nil) (Nat.le_add_right _ _)]
    dsimp only
    rw [skipSpace_of_blank blank Text.stops_nil]
    rfl

end Documents

end FullTextQuery.Json
