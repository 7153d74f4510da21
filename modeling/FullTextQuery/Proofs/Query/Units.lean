import FullTextQuery.Proofs.Query.CanonicalUnits
import FullTextQuery.Proofs.Query.Matching

namespace FullTextQuery.Query

/-!
# Texts in units

A text is a sequence of units with layout between them: words, members, parameters,
numbers, quoted texts, operators and signs, each taken as far as it goes.  A text is
laid out anew by inserting layout in front of it or immediately behind its units and
by writing keywords and names of functions in another case.
-/

variable {cs rest rest' : List Char}

/-- Layout all of whose comments are ended: white space and whole comments. -/
inductive IsLayout : List Char → Prop where
  | nil : IsLayout []
  | space {c : Char} {others : List Char} :
      isSpace c = true → IsLayout others → IsLayout (c :: others)
  | line {comment others : List Char} {lineEnd : Char} :
      (∀ c ∈ comment, inLine c = true) → inLine lineEnd = false → IsLayout others →
        IsLayout ('-' :: '-' :: (comment ++ lineEnd :: others))
  | block {comment others : List Char} :
      afterBlock? comment = some [] → IsLayout others →
        IsLayout ('/' :: '*' :: (comment ++ others))

/-- The end of a block is found whatever follows it. -/
theorem afterBlock?_append
    {comment after : List Char}
    (closed : afterBlock? comment = some after)
    (rest : List Char) :
    afterBlock? (comment ++ rest) = some (after ++ rest) := by
  fun_induction afterBlock? comment with
  | case1 => cases closed
  | case2 others =>
      cases closed
      rfl
  | case3 c others notEnd inductionHypothesis =>
      rw [List.cons_append, afterBlock?.eq_3, inductionHypothesis closed]
      rintro front rfl shape
      cases others with
      | nil => cases closed
      | cons d others =>
          cases shape
          exact notEnd others rfl rfl

/-- The end of a line is a blank. -/
theorem isSpace_of_not_inLine
    {c : Char}
    (lineEnd : inLine c = false) :
    isSpace c = true := by
  simp only [inLine, Bool.not_eq_false', Bool.or_eq_true, beq_iff_eq] at lineEnd
  rcases lineEnd with rfl | rfl <;> rfl

theorem skipLayout_space
    {c : Char}
    (space : isSpace c = true)
    (rest : List Char) :
    skipLayout .between (c :: rest) = skipLayout .between rest := by
  rw [skipLayout_cons, if_pos space]
  · rintro others shape
    cases shape
    exact absurd space (by decide)
  · rintro others shape
    cases shape
    exact absurd space (by decide)

namespace IsLayout

variable {layout others : List Char}

/-- Layout behind layout is layout. -/
theorem append
    (complete : IsLayout layout)
    (completeToo : IsLayout others) :
    IsLayout (layout ++ others) := by
  induction complete with
  | nil => exact completeToo
  | space isSpace _ inductionHypothesis => exact .space isSpace inductionHypothesis
  | line inside ends _ inductionHypothesis =>
      simpa using IsLayout.line inside ends inductionHypothesis
  | block closed _ inductionHypothesis =>
      simpa using IsLayout.block closed inductionHypothesis

/-- Complete layout makes no difference to what is left behind layout. -/
theorem skipLayout_append
    (complete : IsLayout layout)
    (rest : List Char) :
    skipLayout .between (layout ++ rest) = skipLayout .between rest := by
  induction complete with
  | nil => rfl
  | space isSpace _ inductionHypothesis =>
      rw [List.cons_append, skipLayout_space isSpace, inductionHypothesis]
  | @line comment others lineEnd inside ends _ inductionHypothesis =>
      have dropped := Text.dropWhile_run inside
        (Text.stops_cons.mpr ends : Text.Stops inLine (lineEnd :: (others ++ rest)))
      rw [List.cons_append, List.cons_append, List.append_assoc, List.cons_append, skipLayout,
        skipLayout_line, dropped, skipLayout_space (isSpace_of_not_inLine ends),
        inductionHypothesis]
  | @block comment others closed _ inductionHypothesis =>
      rw [List.cons_append, List.cons_append, List.append_assoc, skipLayout, skipLayout_block,
        afterBlock?_append closed]
      exact inductionHypothesis

/-- Layout begins with white space or with the first character of a comment. -/
theorem stops_append
    (complete : IsLayout layout)
    {kind : Char → Bool}
    (noLayout : [' ', '\t', '\r', '\n', '/', '-'].all fun c => !kind c)
    (stops : Text.Stops kind rest) :
    Text.Stops kind (layout ++ rest) := by
  have other : ∀ c ∈ [' ', '\t', '\r', '\n', '/', '-'], kind c = false := by
    simpa using noLayout
  cases complete with
  | nil => exact stops
  | space isSpace =>
      simp only [Query.isSpace, Bool.or_eq_true, beq_iff_eq] at isSpace
      rw [List.cons_append, Text.stops_cons]
      rcases isSpace with ((rfl | rfl) | rfl) | rfl <;> exact other _ (by simp)
  | line => exact Text.stops_cons.mpr (other _ (by simp))
  | block => exact Text.stops_cons.mpr (other _ (by simp))

end IsLayout

/-- A block up to its end, and what follows it. -/
theorem exists_block
    {after : List Char}
    (closed : afterBlock? cs = some after) :
    ∃ comment, afterBlock? comment = some [] ∧ cs = comment ++ after := by
  fun_induction afterBlock? cs with
  | case1 => cases closed
  | case2 rest =>
      cases closed
      exact ⟨['*', '/'], rfl, rfl⟩
  | case3 c others notEnd inductionHypothesis =>
      obtain ⟨comment, found, rfl⟩ := inductionHypothesis closed
      refine ⟨c :: comment, ?_, rfl⟩
      rw [afterBlock?.eq_3, found]
      rintro front rfl rfl
      exact notEnd _ rfl rfl

/-- The layout in front of something is complete. -/
theorem exists_layout
    (cs : List Char) :
    skipLayout .between cs = [] ∨
      ∃ layout, IsLayout layout ∧ cs = layout ++ skipLayout .between cs := by
  generalize skipped : skipLayout .between cs = last
  have skips := skips_skipLayout cs
  rw [skipped] at skips
  clear skipped
  induction skips with
  | done => exact .inr ⟨[], .nil, rfl⟩
  | @space c _ _ isSpace _ inductionHypothesis =>
      refine inductionHypothesis.imp id ?_
      rintro ⟨layout, complete, shape⟩
      exact ⟨c :: layout, .space isSpace complete, congrArg (c :: ·) shape⟩
  | @line rest last skips inductionHypothesis =>
      refine inductionHypothesis.elim .inl ?_
      rintro ⟨layout, complete, shape⟩
      obtain ⟨inside, split, ends⟩ := run_iff.mp ⟨rfl, shape⟩
      -- the line end is the first character of the layout behind the comment
      cases complete with
      | nil =>
          cases last with
          | nil => exact .inl rfl
          | cons c others =>
              have isBare := Text.stops_cons.mp skips.bare.noSpace
              simp [isSpace_of_not_inLine (Text.stops_cons.mp ends)] at isBare
      | space _ complete =>
          refine .inr ⟨_, .line inside (Text.stops_cons.mp ends) complete, ?_⟩
          rw [List.cons_append, List.cons_append, List.append_assoc]
          exact congrArg (fun text => '-' :: '-' :: text) split
      | line => exact absurd (Text.stops_cons.mp ends) (by decide)
      | block => exact absurd (Text.stops_cons.mp ends) (by decide)
  | block closed _ inductionHypothesis =>
      refine inductionHypothesis.imp id ?_
      rintro ⟨layout, complete, rfl⟩
      obtain ⟨comment, found, rfl⟩ := exists_block closed
      exact ⟨_, .block found complete, by simp⟩

/-- A word: a letter or an underscore, and letters, digits and underscores behind it. -/
def IsWord
    (word : List Char) :
    Prop :=
  ∃ c others, word = c :: others ∧ isNameStart c = true ∧ ∀ d ∈ others, isNameChar d = true

theorem isDigit_toLower
    (c : Char) :
    Decimal.isDigit c.toLower = Decimal.isDigit c := by
  by_cases upper : c.isUpper = true
  · have start : isNameStart c = true := by simp [isNameStart, Char.isAlpha, upper]
    rw [isDigit_of_isNameStart start, isDigit_of_isNameStart (by rw [isNameStart_toLower, start])]
  · rw [Char.toLower_eq_of_not_isUpper upper]

/-- In another case a word is a word. -/
theorem IsWord.recased
    {word word' : List Char}
    (isWord : IsWord word)
    (lowered : word'.map Char.toLower = word.map Char.toLower) :
    IsWord word' := by
  obtain ⟨c, others, rfl, start, all⟩ := isWord
  obtain ⟨c', others', rfl, sameHead, sameOthers⟩ := List.map_eq_cons_iff.mp lowered
  refine ⟨c', others', rfl, ?_, ?_⟩
  · rw [← isNameStart_toLower, sameHead, isNameStart_toLower, start]
  · intro d member
    have loweredToo : d.toLower ∈ others.map Char.toLower :=
      sameOthers ▸ List.mem_map_of_mem member
    obtain ⟨original, isOriginal, same⟩ := List.mem_map.mp loweredToo
    rw [← isNameChar_toLower, ← same, isNameChar_toLower, all original isOriginal]

theorem IsWord.ne_nil
    {word : List Char}
    (isWord : IsWord word) :
    word ≠ [] := by
  obtain ⟨c, others, rfl, -⟩ := isWord
  exact List.cons_ne_nil _ _

theorem IsWord.isNameChar_of_mem
    {word : List Char}
    (isWord : IsWord word) :
    ∀ c ∈ word, isNameChar c = true := by
  obtain ⟨c, others, rfl, start, all⟩ := isWord
  exact List.forall_mem_cons.mpr ⟨isNameChar_of_isNameStart start, all⟩

/-- A reserved word is a word, in any case. -/
theorem isWord_of_reserved
    {word : List Char}
    (reserved : word.map Char.toLower ∈ reservedWords) :
    IsWord word := by
  have all : (reservedWords.all fun word => isIdentifier (String.ofList word)) = true := by
    decide +kernel
  have isWord : IsWord (word.map Char.toLower) := by
    have identifier := isIdentifier_iff.mp (List.all_eq_true.mp all _ reserved)
    rwa [String.toList_ofList] at identifier
  exact isWord.recased (by simp)

/-- The kinds of units, told apart by their first characters. -/
inductive UnitKind where
  | named
  | parameter
  | number
  | text
  | operator
  | sign
  deriving Repr, DecidableEq

/-- The kind of the units that begin with a character. -/
def kindOf?
    (c : Char) :
    Option UnitKind :=
  if isNameStart c then some .named
  else if c == '@' then some .parameter
  else if Decimal.isDigit c || c == '-' then some .number
  else if c == '"' || c == '\'' then some .text
  else if ['<', '>', '=', '!'].contains c then some .operator
  else if ['(', ')', ',', ';'].contains c then some .sign
  else none

/--
The units of query text, each with what follows it, which the unit does not go on with:
a word, a member, a parameter, a number with or without a fraction, a quoted text, an
operator that no longer one begins with, and a sign.
-/
inductive IsUnit : UnitKind → List Char → List Char → Prop where
  | word {word rest : List Char} :
      IsWord word → Text.Stops isNameChar rest → IsUnit .named word rest
  | member {item property : String} {rest : List Char} :
      IsName item → IsName property → Text.Stops isNameChar rest →
        IsUnit .named (item.toList ++ '.' :: property.toList) rest
  | parameter {name : String} {rest : List Char} :
      IsName name → Text.Stops isNameChar rest → IsUnit .parameter ('@' :: name.toList) rest
  | real {parts : Fraction} {rest : List Char} :
      parts.Proper → Text.Stops Decimal.isDigit rest → IsUnit .number parts.text rest
  | integer {negative : Bool} {digits rest : List Char} :
      IsDigits digits → Text.Stops Decimal.isDigit rest →
        IsUnit .number (minus negative ++ digits) rest
  | text {quote : Char} {value rest : List Char} :
      quote = '"' ∨ quote = '\'' → Text.Stops (· == quote) rest →
        IsUnit .text (quote :: (Expr.doubled quote value ++ [quote])) rest
  | operator {spelling rest : List Char} {op : Comparison} :
      (spelling, op) ∈ Grammar.operatorSigns →
        (∀ c longer, (spelling ++ [c], longer) ∈ Grammar.operatorSigns →
          Text.Stops (· == c) rest) →
            IsUnit .operator spelling rest
  | sign {c : Char} {rest : List Char} :
      c ∈ ['(', ')', ',', ';'] → IsUnit .sign [c] rest

/-- A name is a word. -/
theorem IsName.isWord
    {name : String}
    (proper : IsName name) :
    IsWord name.toList :=
  isIdentifier_iff.mp proper.identifier

/-- What begins as names do is named. -/
theorem kindOf?_of_isNameStart
    {c : Char}
    (start : isNameStart c = true) :
    kindOf? c = some .named := by
  simp [kindOf?, start]

/-- What begins with a digit is a number. -/
theorem kindOf?_of_isDigit
    {c : Char}
    (digit : Decimal.isDigit c = true) :
    kindOf? c = some .number := by
  have noStart : isNameStart c = false := by
    by_contra start
    simp [isDigit_of_isNameStart (by simpa using start)] at digit
  simp [kindOf?, noStart, ne_of_kind digit (by decide : Decimal.isDigit '@' = false), digit]

/-- What a number with or without a fraction begins with. -/
theorem exists_head_minus
    (negative : Bool)
    {digits : List Char}
    (proper : IsDigits digits) :
    ∃ c others, minus negative ++ digits = c :: others ∧ kindOf? c = some .number := by
  cases negative with
  | true => exact ⟨'-', digits, rfl, by decide⟩
  | false =>
      obtain ⟨first, others, rfl⟩ := List.exists_cons_of_ne_nil proper.some
      exact ⟨first, others, rfl, kindOf?_of_isDigit (proper.all first (by simp))⟩

/-- A word is a unit where it is taken as far as it goes. -/
theorem IsWord.isUnit
    {word : List Char}
    (isWord : IsWord word)
    (stops : Text.Stops isNameChar rest) :
    IsUnit .named word rest :=
  .word isWord stops

namespace IsUnit

variable {kind : UnitKind} {unit : List Char}

/-- The first character of a unit tells its kind. -/
theorem exists_head
    (isUnit : IsUnit kind unit rest) :
    ∃ c others, unit = c :: others ∧ kindOf? c = some kind := by
  cases isUnit with
  | word isWord =>
      obtain ⟨c, others, shape, start, -⟩ := isWord
      exact ⟨c, others, shape, kindOf?_of_isNameStart start⟩
  | member isItem =>
      obtain ⟨c, others, shape, start, -⟩ := isItem.isWord
      exact ⟨c, _, by rw [shape, List.cons_append], kindOf?_of_isNameStart start⟩
  | parameter => exact ⟨_, _, rfl, by decide⟩
  | @real parts _ proper =>
      obtain ⟨c, others, shape, isNumber⟩ := exists_head_minus parts.negative proper.whole
      exact ⟨c, _, by rw [Fraction.text, ← List.append_assoc, shape, List.cons_append], isNumber⟩
  | integer proper => exact exists_head_minus _ proper
  | text isQuote =>
      refine ⟨_, _, rfl, ?_⟩
      rcases isQuote with rfl | rfl <;> decide
  | @operator spelling _ op listed =>
      have heads : Grammar.operatorSigns.all fun entry =>
          entry.1.head?.bind kindOf? = some .operator := by
        decide
      have head := List.all_eq_true.mp heads _ listed
      obtain ⟨c, isHead, isOperator⟩ := Option.bind_eq_some_iff.mp (of_decide_eq_true head)
      obtain ⟨others, shape⟩ := List.head?_eq_some_iff.mp isHead
      exact ⟨c, others, shape, isOperator⟩
  | sign listed =>
      have heads : ['(', ')', ',', ';'].all fun c => kindOf? c = some .sign := by decide
      exact ⟨_, [], rfl, of_decide_eq_true (List.all_eq_true.mp heads _ listed)⟩

/-- A unit has characters. -/
theorem ne_nil
    (isUnit : IsUnit kind unit rest) :
    unit ≠ [] := by
  obtain ⟨c, others, rfl, -⟩ := isUnit.exists_head
  exact List.cons_ne_nil _ _

/-- No layout begins a unit. -/
theorem opens
    (isUnit : IsUnit kind unit rest) :
    Opens unit := by
  obtain ⟨c, others, shape, isKind⟩ := isUnit.exists_head
  by_cases signed : c = '-'
  · cases isUnit with
    | @real parts _ proper =>
        rw [Fraction.text, ← List.append_assoc]
        exact (opens_minus _ proper.whole).append _
    | integer proper => exact opens_minus _ proper
    | _ => exact absurd isKind (by rw [signed]; decide)
  · have visible : ∀ d, kindOf? d = none → c ≠ d := by
      rintro d noKind rfl
      simp [noKind] at isKind
    rw [shape]
    refine .visible ?_ (visible '/' rfl) signed
    simp only [isSpace, Bool.or_eq_false_iff, beq_eq_false_iff_ne]
    exact ⟨⟨⟨visible _ rfl, visible _ rfl⟩, visible _ rfl⟩, visible _ rfl⟩

/-- Layout before a unit ends where the unit begins. -/
theorem skipLayout_append
    (isUnit : IsUnit kind unit rest)
    (others : List Char) :
    skipLayout .between (unit ++ others) = unit ++ others :=
  skipLayout_of_bare (isUnit.opens.append others).bare

/-- No unit begins with a character of no kind. -/
theorem stops
    (isUnit : IsUnit kind unit rest)
    {c : Char}
    (noKind : kindOf? c = none)
    (others : List Char) :
    Text.Stops (· == c) (unit ++ others) := by
  obtain ⟨d, more, rfl, isKind⟩ := isUnit.exists_head
  rw [List.cons_append, Text.stops_cons, beq_eq_false_iff_ne]
  rintro rfl
  simp [noKind] at isKind

end IsUnit

section Operators

/-- The first operator in the list that a text begins with. -/
def scanSpelling?
    (cs : List Char) :
    Option (Comparison × List Char) :=
  (Grammar.operatorSigns.find? fun entry => entry.1.isPrefixOf cs).map fun entry =>
    (entry.2, cs.drop entry.1.length)

/-- An operator is a spelling of signs or the word `like`. -/
theorem scanOperator?_eq_or
    (cs : List Char) :
    Grammar.scanOperator? cs =
      (scanSpelling? cs).or
        ((scanWord? "like".toList cs).map fun found => (Comparison.like, found.2)) := by
  unfold Grammar.scanOperator? scanSpelling?
  cases Grammar.operatorSigns.find? fun entry => entry.1.isPrefixOf cs <;> rfl

/-- An operator that no longer one begins with is the one that is found. -/
theorem scanSpelling?_spelling
    {spelling : List Char}
    {op : Comparison}
    (listed : (spelling, op) ∈ Grammar.operatorSigns)
    (longest : ∀ c longer, (spelling ++ [c], longer) ∈ Grammar.operatorSigns →
      Text.Stops (· == c) rest) :
    scanSpelling? (spelling ++ rest) = some (op, rest) := by
  have noEq := longest '='
  have noGreater := longest '>'
  simp only [Grammar.operatorSigns, List.mem_cons, Prod.mk.injEq, List.not_mem_nil,
    or_false] at listed
  rcases listed with ⟨rfl, rfl⟩ | ⟨rfl, rfl⟩ | ⟨rfl, rfl⟩ | ⟨rfl, rfl⟩ | ⟨rfl, rfl⟩ |
    ⟨rfl, rfl⟩ | ⟨rfl, rfl⟩
  · rfl
  · rfl
  · rfl
  · rfl
  · rfl
  · have notEq := noEq .ltEq (by decide)
    have notGreater := noGreater .notEq (by decide)
    cases rest with
    | nil => rfl
    | cons c others =>
        rw [Text.stops_cons, beq_eq_false_iff_ne] at notEq notGreater
        simp [scanSpelling?, Grammar.operatorSigns, notEq.symm, notGreater.symm]
  · have notEq := noEq .gtEq (by decide)
    cases rest with
    | nil => rfl
    | cons c others =>
        rw [Text.stops_cons, beq_eq_false_iff_ne] at notEq
        simp [scanSpelling?, Grammar.operatorSigns, notEq.symm]

theorem scanSpelling?_of_head
    {c : Char}
    {others : List Char}
    (noOperator : kindOf? c ≠ some .operator) :
    scanSpelling? (c :: others) = none := by
  rw [scanSpelling?, Option.map_eq_none_iff, List.find?_eq_none]
  rintro ⟨spelling, op⟩ listed isFront
  have isUnit : IsUnit .operator spelling [] := .operator listed fun _ _ _ => Text.stops_nil
  obtain ⟨d, more, rfl, isOperator⟩ := isUnit.exists_head
  rw [List.isPrefixOf_iff_prefix, List.cons_prefix_cons] at isFront
  exact noOperator (isFront.1 ▸ isOperator)

/-- What would make an operator longer is the end of an operator. -/
theorem mem_of_operatorSigns
    {spelling : List Char}
    {c : Char}
    {op : Comparison}
    (listed : (spelling ++ [c], op) ∈ Grammar.operatorSigns) :
    c ∈ ['<', '>', '='] := by
  have all : (Grammar.operatorSigns.all fun entry =>
      entry.1.getLast?.all fun c => ['<', '>', '='].contains c) = true := by
    decide
  have last := List.all_eq_true.mp all _ listed
  simpa using last

/-- The operator that is found is one that no longer one begins with. -/
theorem exists_spelling
    {op : Comparison}
    (found : scanSpelling? cs = some (op, rest)) :
    ∃ spelling, IsUnit .operator spelling rest ∧ cs = spelling ++ rest := by
  obtain ⟨⟨spelling, op⟩, isFirst, shape⟩ := Option.map_eq_some_iff.mp found
  have listed := List.mem_of_find?_eq_some isFirst
  have isFront := List.find?_some isFirst
  obtain ⟨behind, rfl⟩ := List.isPrefixOf_iff_prefix.mp isFront
  rw [List.drop_left, Prod.mk.injEq] at shape
  obtain ⟨rfl, rfl⟩ := shape
  refine ⟨spelling, .operator listed fun c longer listedToo => ?_, rfl⟩
  -- a longer operator would have been found
  rw [Text.stops_beq_iff]
  rintro others rfl
  have sizes : (Grammar.operatorSigns.all fun entry =>
      0 < entry.1.length && entry.1.length ≤ 2) = true := by
    decide
  have size := List.all_eq_true.mp sizes _ listed
  have foundToo : scanSpelling? ((spelling ++ [c]) ++ others) = some (longer, others) := by
    refine scanSpelling?_spelling listedToo fun d longest listedLast => ?_
    have tooLong := List.all_eq_true.mp sizes _ listedLast
    simp only [List.length_append, List.length_singleton, Bool.and_eq_true,
      decide_eq_true_eq] at size tooLong
    omega
  rw [List.append_assoc, List.singleton_append, found] at foundToo
  simp at foundToo

/-- An operator that begins like equality is equality. -/
theorem spelling_eq_of_head
    {spelling others : List Char}
    {op : Comparison}
    (listed : (spelling, op) ∈ Grammar.operatorSigns)
    (shape : spelling = '=' :: others) :
    others = [] := by
  have all : (Grammar.operatorSigns.all fun entry =>
      entry.1.head? != some '=' || entry.1 == ['=']) = true := by
    decide
  have single := List.all_eq_true.mp all _ listed
  simpa [shape] using single

end Operators

/-- The direction of a sort key is one of two keywords. -/
theorem matched?_direction
    (cs : List Char) :
    (Grammar.direction cs).matched? =
      ((scanWord? "asc".toList cs).map fun found => (false, found.2)).or
        ((scanWord? "desc".toList cs).map fun found => (true, found.2)) := by
  simp only [Grammar.direction, Matcher.matched?_token]
  cases isAscending : afterWord? "asc".toList cs with
  | none =>
      have noAscending : scanWord? "asc".toList cs = none := by rw [scanWord?, isAscending]
      rw [noAscending, Option.map_none, Option.none_or]
  | some rest =>
      obtain ⟨text, shape, lowered⟩ := afterWord?_eq_some_iff.mp isAscending
      obtain ⟨c, others, rfl, isLetter, -⟩ := List.map_eq_cons_iff.mp lowered
      have noDescending : scanWord? "desc".toList cs = none := by
        rw [shape]
        exact scanWord?_of_head (by rw [isLetter]; decide)
      have ascending : scanWord? "asc".toList cs =
          if continuesName rest then none else some ((), rest) := by
        rw [scanWord?, isAscending]
      rw [ascending, noDescending]
      by_cases goesOn : continuesName rest = true
      · rw [if_pos goesOn]
        exact if_pos goesOn
      · rw [if_neg goesOn]
        exact if_neg goesOn

end FullTextQuery.Query
