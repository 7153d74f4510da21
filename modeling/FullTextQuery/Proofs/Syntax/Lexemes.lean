import FullTextQuery.Proofs.Decimal.Numeral
import FullTextQuery.Proofs.Query.Matching
import FullTextQuery.Proofs.Syntax.Layout

namespace FullTextQuery.Syntax

/-!
# Scanners and the rules without layout

Each scanner takes what the rule for its kind of token matches, and the tree of
the token spells what the scanner answers.
-/

open PegGrammar

variable {cs rest : List Char}

/--
What an expression and a scanner make of a text, layout included: both fail, or
both take the same characters, at least one, and the trees stand for the value.
-/
inductive Takes (p : Peg Rule) (reads : α → List (Tree Rule) → Prop) (cs : List Char) :
    Option (α × List Char) → Prop where
  | fails : grammar.Parses p cs none → Takes p reads cs none
  | found {value : α} {rest : List Char} {trees : List (Tree Rule)} :
      grammar.Parses p cs (some (trees, rest)) → reads value trees →
        rest.length < cs.length → Takes p reads cs (some (value, rest))

/-- The one tree of a rule without parts, by the characters that it covers. -/
def Token
    (r : Rule)
    (spells : α → List Char → Prop)
    (value : α)
    (trees : List (Tree Rule)) :
    Prop :=
  ∃ text, trees = [.node r text []] ∧ spells value text

/-- An atomic rule takes what its body takes, and covers it. -/
theorem Takes.token
    {r : Rule}
    {spells : α → List Char → Prop}
    {scanned : Option (α × List Char)}
    (atomic : kind r = .atomic)
    (fails : scanned = none → grammar.Parses (body r) cs none)
    (found : ∀ value rest, scanned = some (value, rest) →
      ∃ text parts, cs = text ++ rest ∧ text ≠ [] ∧ spells value text ∧
        grammar.Parses (body r) cs (some (parts, rest))) :
    Takes (.rule r) (Token r spells) cs scanned := by
  match scanned with
  | none =>
      have sameInside : grammar.inside r = body r := by simp [PegGrammar.inside, grammar, atomic]
      exact .fails (.ofInsideFails (sameInside ▸ fails rfl))
  | some (value, rest) =>
      obtain ⟨text, parts, rfl, someChar, spelled, matched⟩ := found value rest rfl
      refine .found (.ofAtomic atomic matched) ⟨text, rfl, spelled⟩ ?_
      have := List.length_pos_iff.mpr someChar
      simp only [List.length_append]
      omega

section Words

theorem takesOne_nameChar :
    TakesOne grammar (.rule .nameChar) Query.isNameChar :=
  .silent rfl (takesOne_one.choice (takesOne_char '_'))

/-- What must not go on with an identifier is matched where none goes on. -/
theorem parses_endOfWord
    (ends : Query.continuesName cs = false) :
    grammar.Parses (.absent (.rule .nameChar)) cs (some ([], cs)) :=
  .absent (takesOne_nameChar.fails (Query.continuesName_eq_false_iff.mp ends))

/-- A word does not end where a name goes on. -/
theorem not_parses_endOfWord
    (goesOn : Query.continuesName cs = true) :
    grammar.Parses (.absent (.rule .nameChar)) cs none := by
  obtain ⟨c, others, rfl⟩ : ∃ c others, cs = c :: others :=
    List.exists_cons_of_ne_nil (by rintro rfl; cases goesOn)
  exact .absentFails (takesOne_nameChar.takes others goesOn)

/-- A whole word is matched as it is scanned. -/
theorem parses_wholeWord
    (lowered : String)
    (cs : List Char) :
    grammar.Parses (.sequence [word lowered, .absent (.rule .nameChar)]) cs
      ((Query.scanWord? lowered.toList cs).map fun found => ([], found.2)) := by
  have front := parses_word (g := grammar) lowered cs
  unfold Query.scanWord?
  cases found : Query.afterWord? lowered.toList cs with
  | none =>
      rw [found] at front
      exact .seqFails front
  | some after =>
      rw [found] at front
      dsimp only
      cases more : Query.continuesName after with
      | true => exact .andThenFails front (not_parses_endOfWord more)
      | false => exact .andThen front (parses_endOfWord more)

/-- A rule for a whole word takes what is scanned as the word. -/
theorem takes_wholeWord
    {r : Rule}
    {lowered : String}
    (atomic : kind r = .atomic)
    (isWord : body r = .sequence [word lowered, .absent (.rule .nameChar)])
    (someChar : lowered.toList ≠ []) :
    Takes (.rule r) (Token r fun _ _ => True) cs (Query.scanWord? lowered.toList cs) := by
  have matched := parses_wholeWord lowered cs
  rw [← isWord] at matched
  refine .token atomic ?_ ?_
  · intro notFound
    rwa [notFound] at matched
  · rintro ⟨⟩ rest found
    obtain ⟨text, shape, spelled, -⟩ := Query.scanWord?_eq_some_iff.mp found
    rw [found] at matched
    refine ⟨text, _, shape, ?_, trivial, matched⟩
    rintro rfl
    exact someChar spelled.symm

/-- The direction of a sort key is one of two words. -/
theorem takes_direction :
    Takes (.rule .direction)
      (Token .direction fun descending text =>
        descending = decide (text.map Char.toLower = "desc".toList))
      cs (Query.Grammar.direction cs).matched? := by
  have ascending := parses_word (g := grammar) "asc" cs
  have descending := parses_word (g := grammar) "desc" cs
  -- Once a word is found the other one is not tried, even if an identifier goes on behind it.
  have token : ∀ {value : Bool} {text rest : List Char}, cs = text ++ rest →
      (value = decide (text.map Char.toLower = "desc".toList)) → text ≠ [] →
      grammar.Parses (.firstOf [word "asc", word "desc"]) cs (some ([], rest)) →
      Takes (.rule .direction)
        (Token .direction fun descending text =>
          descending = decide (text.map Char.toLower = "desc".toList)) cs
        (if Query.continuesName rest then none else some (value, rest)) := by
    intro value text rest shape spelled someChar matched
    refine .token rfl ?_ ?_
    · intro goesOn
      exact .andThenFails matched (not_parses_endOfWord (by simpa using goesOn))
    · intro found rest' answered
      simp only [Option.ite_none_left_eq_some, Option.some.injEq, Prod.mk.injEq] at answered
      obtain ⟨ends, rfl, rfl⟩ := answered
      exact ⟨text, _, shape, someChar, spelled,
        .andThen matched (parses_endOfWord (by simpa using ends))⟩
  simp only [Query.Grammar.direction, Query.Matcher.matched?_token]
  cases isAscending : Query.afterWord? "asc".toList cs with
  | some rest =>
      obtain ⟨text, shape, spelled⟩ := Query.afterWord?_eq_some_iff.mp isAscending
      rw [isAscending] at ascending
      refine token shape (by simp [spelled]) ?_ (.choiceFirst ascending)
      rintro rfl
      cases spelled
  | none =>
      rw [isAscending] at ascending
      dsimp only
      cases isDescending : Query.afterWord? "desc".toList cs with
      | some rest =>
          obtain ⟨text, shape, spelled⟩ := Query.afterWord?_eq_some_iff.mp isDescending
          rw [isDescending] at descending
          have answer := token shape (Eq.symm (decide_eq_true spelled))
            (by rintro rfl; cases spelled) (.choiceSecond ascending descending)
          convert answer using 1
          simp only [Query.scanWord?, isDescending]
          split <;> rfl
      | none =>
          rw [isDescending] at descending
          have notScanned : Query.scanWord? "desc".toList cs = none := by
            simp only [Query.scanWord?, isDescending]
          rw [notScanned]
          exact .token rfl (fun _ => .seqFails (.choiceSecond ascending descending)) (by simp)

end Words

section Reserved

/--
Of some words of which none begins a later one, the first that is found is the whole
run of an identifier's characters, or the run goes on behind it.
-/
theorem parses_firstWord
    (words : List String)
    (cs : List Char)
    (apart : words.Pairwise fun one other => ¬ one.toList <+: other.toList)
    (whole : ∀ w ∈ words, ∀ c ∈ w.toList, Query.isNameChar c = true) :
    ((cs.takeWhile Query.isNameChar).map Char.toLower ∈ words.map String.toList →
      ∃ rest, grammar.Parses (.firstOf (words.map word)) cs (some ([], rest)) ∧
        Query.continuesName rest = false) ∧
    ((cs.takeWhile Query.isNameChar).map Char.toLower ∉ words.map String.toList →
      grammar.Parses (.firstOf (words.map word)) cs none ∨
      ∃ rest, grammar.Parses (.firstOf (words.map word)) cs (some ([], rest)) ∧
        Query.continuesName rest = true) := by
  induction words with
  | nil => exact ⟨by simp, fun _ => .inl (.absentFails .empty)⟩
  | cons w others inductionHypothesis =>
      obtain ⟨firstApart, othersApart⟩ := List.pairwise_cons.mp apart
      obtain ⟨firstWhole, othersWhole⟩ := List.forall_mem_cons.mp whole
      have front := parses_word (g := grammar) w cs
      cases found : Query.afterWord? w.toList cs with
      | none =>
          have notRun : (cs.takeWhile Query.isNameChar).map Char.toLower ≠ w.toList := by
            intro isRun
            have := Query.afterWord?_eq_some_iff.mpr
              ⟨_, List.takeWhile_append_dropWhile.symm, isRun⟩
            simp [found] at this
          obtain ⟨isWord, isNoWord⟩ := inductionHypothesis othersApart othersWhole
          rw [found] at front
          constructor
          · intro member
            obtain ⟨rest, matched, ends⟩ := isWord (by simpa [notRun] using member)
            exact ⟨rest, .firstOf_tail front matched, ends⟩
          · intro notMember
            rcases isNoWord (by simpa [notRun] using notMember) with fails | ⟨rest, matched, more⟩
            · exact .inl (.firstOf_tail front fails)
            · exact .inr ⟨rest, .firstOf_tail front matched, more⟩
      | some rest =>
          obtain ⟨text, rfl, spelled⟩ := Query.afterWord?_eq_some_iff.mp found
          have allName : ∀ c ∈ text, Query.isNameChar c = true := by
            intro c member
            rw [← Query.isNameChar_toLower]
            exact firstWhole _ (spelled ▸ List.mem_map_of_mem member)
          rw [List.takeWhile_append_of_pos allName, List.map_append, spelled]
          rw [found] at front
          cases more : Query.continuesName rest with
          | false =>
              have noMore := Text.takeWhile_of_stops (Query.continuesName_eq_false_iff.mp more)
              exact ⟨fun _ => ⟨rest, .firstOf_head front, more⟩, fun notMember =>
                absurd (by simp [noMore]) notMember⟩
          | true =>
              refine ⟨fun member => ?_, fun _ => .inr ⟨rest, .firstOf_head front, more⟩⟩
              obtain ⟨c, after, rfl⟩ : ∃ c after, rest = c :: after :=
                List.exists_cons_of_ne_nil (by rintro rfl; cases more)
              have startsName : Query.isNameChar c = true := more
              obtain ⟨other, isOther, same⟩ := List.mem_map.mp member
              rcases List.mem_cons.mp isOther with rfl | later
              · simp [startsName] at same
              · exact absurd ⟨_, same.symm⟩ (firstApart other later)

/-- The words that are no identifiers are matched whole. -/
theorem parses_reserved
    (cs : List Char) :
    (Query.reservedWords.contains ((cs.takeWhile Query.isNameChar).map Char.toLower) = true →
      ∃ found, grammar.Parses (.rule .reserved) cs (some found)) ∧
    (Query.reservedWords.contains ((cs.takeWhile Query.isNameChar).map Char.toLower) = false →
      grammar.Parses (.rule .reserved) cs none) := by
  have words := parses_firstWord
    ["from", "in", "join", "on", "where", "select", "order", "by", "asc", "desc", "take",
      "and", "or", "not", "null", "like"] cs (by decide +kernel)
    (fun _ member => Query.isNameChar_of_mem_reservedWords (List.mem_map_of_mem member))
  obtain ⟨isWord, isNoWord⟩ := words
  constructor
  · intro contained
    obtain ⟨rest, matched, ends⟩ := isWord (by simpa [Query.reservedWords] using contained)
    exact ⟨_, .ofInside (.andThen matched (parses_endOfWord ends))⟩
  · intro notContained
    rcases isNoWord (by simpa [Query.reservedWords] using notContained) with
      fails | ⟨rest, matched, more⟩
    · exact .ofInsideFails (.seqFails fails)
    · exact .ofInsideFails (.andThenFails matched (not_parses_endOfWord more))

end Reserved

/-- An identifier is taken as it is scanned. -/
theorem takes_name :
    Takes (.rule .name) (Token .name fun name text => text = name.toList) cs
      (Query.scanName? cs) := by
  obtain ⟨isReserved, isNotReserved⟩ := parses_reserved cs
  have start : TakesOne grammar (.firstOf [one Char.isAlpha, chars "_"]) Query.isNameStart :=
    takesOne_one.choice (takesOne_char '_')
  refine .token rfl ?_ ?_
  · intro notFound
    cases reserved : Query.reservedWords.contains
        ((cs.takeWhile Query.isNameChar).map Char.toLower) with
    | true =>
        obtain ⟨found, matched⟩ := isReserved reserved
        exact .seqFails (.absentFails matched)
    | false =>
        refine .andThenFails (.absent (isNotReserved reserved)) (.seqFails (start.fails ?_))
        cases cs with
        | nil => exact Text.stops_nil
        | cons c rest =>
            rw [Text.stops_cons]
            by_contra isStart
            rw [Bool.not_eq_false] at isStart
            rw [List.takeWhile_cons_of_pos (Query.isNameChar_of_isNameStart isStart)] at reserved
            rw [Query.scanName?, if_pos] at notFound
            · cases notFound
            · rw [isStart, reserved]
              rfl
  · intro name rest found
    obtain ⟨proper, rfl, stops⟩ := Query.scanName?_eq_some_iff.mp found
    obtain ⟨c, others, shape, isStart, all⟩ := Query.isIdentifier_iff.mp proper.identifier
    have run := Text.takeWhile_run (fun c => proper.isNameChar_of_mem) stops
    have free := isNotReserved (by simpa [run] using proper.notReserved)
    refine ⟨name.toList, [], rfl, by simp [shape], rfl, ?_⟩
    rw [shape] at free ⊢
    have tail := takesOne_nameChar.many (others ++ rest)
    rw [Text.dropWhile_run all stops] at tail
    exact .andThen (.absent free) (.andThen (start.takes _ isStart) tail)

section Numbers

theorem takesOne_digit :
    TakesOne grammar (one Char.isDigit) Decimal.isDigit := by
  have same : Char.isDigit = Decimal.isDigit := funext fun c => (Decimal.isDigit_eq c).symm
  exact same ▸ takesOne_one

/-- A minus sign is taken where there is one. -/
theorem parses_minus
    {negative : Bool}
    (noSign : negative = false → ∀ others, rest ≠ '-' :: others) :
    grammar.Parses (.optional (chars "-")) (Query.minus negative ++ rest) (some ([], rest)) := by
  cases negative with
  | true => exact .choiceFirst (parses_chars "-" rest)
  | false =>
      refine .choiceSecond (not_parses_chars ?_) .empty
      rintro ⟨others, shape⟩
      exact noSign rfl others shape.symm

/-- The rule of digits takes all of them. -/
theorem parses_digits
    {digits : List Char}
    (proper : Query.IsDigits digits)
    (stops : Text.Stops Decimal.isDigit rest) :
    grammar.Parses (.atLeastOnce (one Char.isDigit)) (digits ++ rest) (some ([], rest)) :=
  takesOne_digit.atLeastOnce proper.some proper.all stops

/-- Where there is no digit at the front there are no digits. -/
theorem not_parses_digits
    (noDigit : cs.takeWhile Decimal.isDigit = []) :
    grammar.Parses (.atLeastOnce (one Char.isDigit)) cs none := by
  refine takesOne_digit.not_atLeastOnce ?_
  have stops : Text.Stops Decimal.isDigit (cs.dropWhile Decimal.isDigit) :=
    Text.stops_dropWhile cs
  have whole := List.takeWhile_append_dropWhile (p := Decimal.isDigit) (l := cs)
  rw [noDigit, List.nil_append] at whole
  rwa [whole] at stops

/-- An integer is taken as it is scanned. -/
theorem takes_integer :
    Takes (.rule .integer)
      (Token .integer fun digits text => text = digits ∧ ∃ negative unsigned,
        digits = Query.minus negative ++ unsigned ∧ Query.IsDigits unsigned) cs
      (Query.scanInteger? cs) := by
  refine .token rfl ?_ ?_
  · intro notFound
    obtain ⟨negative, unsigned, rfl, noSign⟩ := Query.exists_minus cs
    rw [Query.scanInteger?_minus noSign] at notFound
    split at notFound
    · rename_i noDigit
      exact .andThenFails (parses_minus noSign) (not_parses_digits noDigit)
    · cases notFound
  · intro text rest found
    obtain ⟨negative, digits, rfl, proper, rfl, stops⟩ :=
      Query.scanInteger?_eq_some_iff.mp found
    refine ⟨_, [], rfl, by simp [proper.some], ⟨rfl, negative, digits, rfl, proper⟩, ?_⟩
    rw [List.append_assoc]
    exact .andThen (parses_minus fun _ => proper.append_ne) (parses_digits proper stops)

/-- A number with a fraction is taken as it is scanned. -/
theorem takes_real :
    Takes (.rule .real) (Token .real fun parts text => text = parts.text ∧ parts.Proper) cs
      (Query.scanReal? cs) := by
  refine .token rfl ?_ ?_
  · intro notFound
    obtain ⟨negative, unsigned, rfl, noSign⟩ := Query.exists_minus cs
    refine .andThenFails (parses_minus noSign) ?_
    rw [Query.scanReal?_minus noSign] at notFound
    have whole : unsigned.takeWhile Decimal.isDigit = unsigned.takeWhile Decimal.isDigit ∧
        unsigned.dropWhile Decimal.isDigit = unsigned.dropWhile Decimal.isDigit := ⟨rfl, rfl⟩
    obtain ⟨all, shape, stops⟩ := Query.run_iff.mp whole
    split at notFound
    · rename_i noDigit
      exact .seqFails (not_parses_digits noDigit)
    · rename_i after pointed someDigit
      split at notFound
      · rename_i noFraction
        rw [pointed] at shape stops
        rw [shape]
        exact .andThenFails (parses_digits ⟨someDigit, all⟩ stops)
          (.andThenFails (parses_chars "." after) (not_parses_digits noFraction))
      · cases notFound
    · rename_i someDigit noPoint
      rw [shape]
      refine .andThenFails (parses_digits ⟨someDigit, all⟩ stops) (.seqFails (not_parses_chars ?_))
      rintro ⟨others, front⟩
      exact noPoint others front.symm
  · intro parts rest found
    obtain ⟨proper, rfl, stops⟩ := Query.scanReal?_eq_some_iff.mp found
    refine ⟨_, [], rfl, by simp [Query.Fraction.text], ⟨rfl, proper⟩, ?_⟩
    simp only [Query.Fraction.text, List.append_assoc, List.cons_append]
    exact .andThen (parses_minus fun _ => proper.whole.append_ne)
      (.andThen (parses_digits proper.whole (Text.stops_cons.mpr rfl))
        (.andThen (parses_chars "." _) (parses_digits proper.fraction stops)))

end Numbers

section Texts

variable {quote : Char}

/-- What stands between quotes. -/
def quoted
    (quote : Char) :
    Peg Rule :=
  .many (.firstOf
    [chars (String.ofList [quote, quote]),
      .sequence [.absent (chars (String.ofList [quote])), anyChar]])

/-- Quoted characters are taken up to the quote that ends them, or to the end of the text. -/
theorem parses_quoted
    (quote : Char)
    (cs : List Char) :
    grammar.Parses (quoted quote) cs
      (some ([], match Query.scanQuoted? quote cs with
        | some (_, rest) => quote :: rest
        | none => [])) := by
  have noPair : ∀ {cs : List Char}, (∀ rest, cs ≠ quote :: quote :: rest) →
      grammar.Parses (chars (String.ofList [quote, quote])) cs none := by
    intro cs other
    refine not_parses_chars ?_
    rintro ⟨rest, shape⟩
    rw [String.toList_ofList] at shape
    exact other rest shape.symm
  have inner : ∀ {c : Char} {rest : List Char}, c ≠ quote →
      grammar.Parses (.firstOf
        [chars (String.ofList [quote, quote]),
          .sequence [.absent (chars (String.ofList [quote])), anyChar]]) (c :: rest)
        (some ([], rest)) := by
    intro c rest other
    refine .choiceSecond (noPair fun rest shape => other (List.cons.inj shape).1)
      (.andThen (.absent ((takesOne_char quote).fails ?_)) (takesOne_one.takes rest rfl))
    simpa using other
  have stops : ∀ {rest : List Char}, Text.Stops (· == quote) rest →
      grammar.Parses (quoted quote) (quote :: rest) (some ([], quote :: rest)) := by
    intro rest single
    refine .manyStops (.choiceSecond (noPair ?_)
      (.seqFails (.absentFails ((takesOne_char quote).takes rest (by simp)))))
    rintro others shape
    obtain rfl := (List.cons.inj shape).2
    simp at single
  fun_induction Query.scanQuoted? quote cs with
  | case1 =>
      exact .manyStops (.choiceSecond (noPair (by simp))
        (.andThenFails (.absent ((takesOne_char quote).fails Text.stops_nil))
          (takesOne_one.fails Text.stops_nil)))
  | case2 => exact stops Text.stops_nil
  | case3 c other =>
      exact .more (inner other) (.manyStops (.choiceSecond (noPair (by simp))
        (.andThenFails (.absent ((takesOne_char quote).fails Text.stops_nil))
          (takesOne_one.fails Text.stops_nil))))
  | case4 rest inductionHypothesis =>
      have pair := parses_chars (g := grammar) (String.ofList [quote, quote]) rest
      rw [String.toList_ofList] at pair
      have whole := Parses.more (.choiceFirst pair) inductionHypothesis
      cases found : Query.scanQuoted? quote rest with
      | none => rw [found] at whole; exact whole
      | some answer => rw [found] at whole; exact whole
  | case5 d rest other => exact stops (by simpa using other)
  | case6 c d rest other inductionHypothesis =>
      have whole := Parses.more (inner other) inductionHypothesis
      cases found : Query.scanQuoted? quote (d :: rest) with
      | none => rw [found] at whole; exact whole
      | some answer => rw [found] at whole; exact whole

/-- The rule for what stands between quotes of one kind covers what is scanned there. -/
theorem takes_quoted
    {r : Rule}
    (atomic : kind r = .atomic)
    (isQuoted : body r = quoted quote)
    (cs : List Char) :
    match Query.scanQuoted? quote cs with
    | some (value, rest) =>
        grammar.Parses (.rule r) cs
          (some ([.node r (Expr.doubled quote value) []], quote :: rest))
    | none => ∃ trees, grammar.Parses (.rule r) cs (some (trees, [])) := by
  have matched := parses_quoted quote cs
  rw [← isQuoted] at matched
  cases found : Query.scanQuoted? quote cs with
  | none =>
      rw [found] at matched
      refine ⟨[.node r cs []], ?_⟩
      rw [← List.append_nil cs] at matched ⊢
      simpa using Parses.ofAtomic atomic matched
  | some answer =>
      obtain ⟨shape, ends⟩ := Query.scanQuoted?_eq_some_iff.mp found
      rw [found] at matched
      dsimp only
      rw [shape] at matched ⊢
      exact .ofAtomic atomic matched

/-- Quotes of one kind around what is scanned between them. -/
theorem parses_delimited
    {r : Rule}
    (atomic : kind r = .atomic)
    (isQuoted : body r = quoted quote)
    (rest : List Char) :
    grammar.Parses
      (.sequence [chars (String.ofList [quote]), .rule r, chars (String.ofList [quote])])
      (quote :: rest)
      ((Query.scanQuoted? quote rest).map fun found =>
        ([.node r (Expr.doubled quote found.1) []], found.2)) := by
  have one := takesOne_char (g := grammar) quote
  have inner := takes_quoted atomic isQuoted rest
  cases found : Query.scanQuoted? quote rest with
  | none =>
      rw [found] at inner
      obtain ⟨trees, matched⟩ := inner
      exact .andThenFails (one.takes rest (by simp))
        (.andThenFails matched (one.fails Text.stops_nil))
  | some answer =>
      rw [found] at inner
      exact .andThen (one.takes rest (by simp))
        (.andThen inner (one.takes answer.2 (by simp)))

/-- Nothing in quotes is found where no quote stands. -/
theorem not_parses_delimited
    {r : Rule}
    (other : Text.Stops (· == quote) cs) :
    grammar.Parses
      (.sequence [chars (String.ofList [quote]), .rule r, chars (String.ofList [quote])]) cs
      none :=
  .seqFails ((takesOne_char quote).fails other)

/-- The tree of a text in quotes of one kind, which keeps the doubled quotes. -/
def QuotedToken
    (value : String)
    (trees : List (Tree Rule)) :
    Prop :=
  ∃ t : Tree Rule, trees = [t] ∧ t.rule = .text ∧
    ∃ quote r, t.parts = [.node r (Expr.doubled quote value.toList) []] ∧
      ((quote = '"' ∧ r = .doubleQuoted) ∨ (quote = '\'' ∧ r = .singleQuoted))

/-- A text in quotes is taken as it is scanned. -/
theorem takes_text :
    Takes (.rule .text) QuotedToken cs (Query.scanText? cs) := by
  have asScanned : ∀ {quote : Char} {r : Rule} {rest : List Char},
      ((quote = '"' ∧ r = .doubleQuoted) ∨ (quote = '\'' ∧ r = .singleQuoted)) →
      grammar.Parses (grammar.inside .text) (quote :: rest)
        ((Query.scanQuoted? quote rest).map fun found =>
          ([.node r (Expr.doubled quote found.1) []], found.2)) →
      Takes (.rule .text) QuotedToken (quote :: rest)
        ((Query.scanQuoted? quote rest).map fun found => (String.ofList found.1, found.2)) := by
    intro quote r rest isKind matched
    cases found : Query.scanQuoted? quote rest with
    | none =>
        rw [found] at matched
        exact .fails (.ofInsideFails matched)
    | some answer =>
        obtain ⟨shape, -⟩ := Query.scanQuoted?_eq_some_iff.mp found
        rw [found] at matched
        refine .found (.ofInside matched) ⟨_, rfl, rfl, quote, r, ?_, isKind⟩ ?_
        · rw [String.toList_ofList]
          rfl
        · simp only [shape, List.length_cons, List.length_append]
          omega
  unfold Query.scanText?
  split
  · rename_i rest
    refine asScanned (.inl ⟨rfl, rfl⟩) ?_
    have first := parses_delimited (r := .doubleQuoted) rfl (rfl : _ = quoted '"') rest
    cases found : Query.scanQuoted? '"' rest with
    | none =>
        rw [found] at first
        exact .choiceSecond first (not_parses_delimited (Text.stops_cons.mpr rfl))
    | some answer =>
        rw [found] at first
        exact .choiceFirst first
  · rename_i rest
    refine asScanned (.inr ⟨rfl, rfl⟩) ?_
    exact .choiceSecond (not_parses_delimited (Text.stops_cons.mpr rfl))
      (parses_delimited (r := .singleQuoted) rfl (rfl : _ = quoted '\'') rest)
  · rename_i noDouble noSingle
    refine .fails (.ofInsideFails (.choiceSecond (not_parses_delimited ?_)
      (not_parses_delimited ?_)))
    · exact Text.stops_beq_iff.mpr noDouble
    · exact Text.stops_beq_iff.mpr noSingle

end Texts

section Operators

/-- The first sign that a text begins with is taken, or what stands behind all signs. -/
theorem parses_firstSign
    (entries : List (String × Comparison))
    {last : Peg Rule}
    {answer : Option (List (Tree Rule) × List Char)}
    (otherwise : grammar.Parses last cs answer) :
    grammar.Parses (.firstOf (entries.map (fun entry => chars entry.1) ++ [last])) cs
      (match entries.find? fun entry => entry.1.toList.isPrefixOf cs with
        | some entry => some ([], cs.drop entry.1.toList.length)
        | none => answer) := by
  induction entries with
  | nil => exact otherwise
  | cons entry entries inductionHypothesis =>
      cases isFront : entry.1.toList.isPrefixOf cs with
      | true =>
          rw [List.find?_cons_of_pos (by exact isFront)]
          obtain ⟨rest, rfl⟩ := List.isPrefixOf_iff_prefix.mp isFront
          dsimp only
          rw [List.drop_left]
          exact .firstOf_head (parses_chars entry.1 rest)
      | false =>
          rw [List.find?_cons_of_neg (by simp [isFront])]
          refine .firstOf_tail (not_parses_chars ?_) inductionHypothesis
          rw [← List.isPrefixOf_iff_prefix, isFront]
          simp

/-- The signs of the operators as they are tried. -/
def signs : List (String × Comparison) :=
  [("<=", .ltEq), (">=", .gtEq), ("!=", .notEq), ("<>", .notEq), ("=", .eq), ("<", .lt),
    (">", .gt)]

/-- An operator is the first of the signs that stands in front, or the word `like`. -/
theorem scanOperator?_eq
    (cs : List Char) :
    Query.Grammar.scanOperator? cs =
      match signs.find? fun entry => entry.1.toList.isPrefixOf cs with
      | some entry => some (entry.2, cs.drop entry.1.toList.length)
      | none => (Query.scanWord? "like".toList cs).map fun found => (.like, found.2) := by
  have found : Query.Grammar.operatorSigns.find? (fun entry => entry.1.isPrefixOf cs) =
      (signs.find? fun entry => entry.1.toList.isPrefixOf cs).map fun entry =>
        (entry.1.toList, entry.2) :=
    List.find?_map (f := fun entry : String × Comparison => (entry.1.toList, entry.2))
      (l := signs)
  unfold Query.Grammar.scanOperator?
  rw [found]
  cases signs.find? fun entry => entry.1.toList.isPrefixOf cs <;> rfl

/-- An operator is taken as it is scanned. -/
theorem takes_operator :
    Takes (.rule .operator)
      (Token .operator fun op text => comparisonOf (.node .operator text []) = .ok op) cs
      (Query.Grammar.scanOperator? cs) := by
  have matched : grammar.Parses (body .operator) cs _ :=
    parses_firstSign signs (parses_wholeWord "like" cs)
  rw [scanOperator?_eq]
  cases found : signs.find? fun entry => entry.1.toList.isPrefixOf cs with
  | some entry =>
      rw [found] at matched
      refine .token rfl (by simp) ?_
      rintro op rest answered
      cases answered
      have isFront : entry.1.toList.isPrefixOf cs = true := by simpa using List.find?_some found
      obtain ⟨rest, rfl⟩ := List.isPrefixOf_iff_prefix.mp isFront
      have spelled : ∀ entry ∈ signs, entry.1.toList ≠ [] ∧
          comparisonOf (.node .operator entry.1.toList []) = .ok entry.2 := by
        decide
      obtain ⟨someChar, isOperator⟩ := spelled entry (List.mem_of_find?_eq_some found)
      rw [List.drop_left]
      exact ⟨_, _, rfl, someChar, isOperator, by simpa using matched⟩
  | none =>
      rw [found] at matched
      refine .token rfl ?_ ?_
      · intro notFound
        rw [Option.map_eq_none_iff] at notFound
        rwa [notFound] at matched
      · intro op rest answered
        obtain ⟨⟨⟨⟩, rest⟩, isWord, shape⟩ := Option.map_eq_some_iff.mp answered
        cases shape
        obtain ⟨text, shape, spelled, -⟩ := Query.scanWord?_eq_some_iff.mp isWord
        rw [isWord] at matched
        refine ⟨text, _, shape, ?_, ?_, matched⟩
        · rintro rfl
          cases spelled
        · simp only [comparisonOf, Tree.text, spelled]
          rfl

end Operators

/-- The end of the text is matched without a character. -/
theorem parses_endOfText :
    grammar.Parses (.rule .endOfText) [] (some ([.node .endOfText [] []], [])) := by
  have atEnd : grammar.Parses (grammar.inside .endOfText) [] (some ([], [])) :=
    .found (t := .finish) rfl
  exact .ofInside atEnd

theorem not_parses_endOfText
    {c : Char} :
    grammar.Parses (.rule .endOfText) (c :: rest) none :=
  .ofInsideFails (.notFound (t := .finish) rfl)

end FullTextQuery.Syntax
