import FullTextQuery.Proofs.Query.CanonicalOperands
import FullTextQuery.Proofs.Query.Units

namespace FullTextQuery.Query

/-!
# Queries are texts in units

What a matcher takes off a text is a sequence of units with layout between them, if
what it leaves is one: so the text of a query is nothing but units and layout.
-/

open Matcher Grammar

variable {α β : Type} {cs rest : List Char}

/-- Whether a text is nothing but units, and layout in front of them and at its end. -/
inductive InUnits : List Char → Prop where
  | ends {gap : List Char} : skipLayout .between gap = [] → InUnits gap
  | unit {gap unit rest : List Char} {kind : UnitKind} :
      IsLayout gap → IsUnit kind unit rest → InUnits rest → InUnits (gap ++ (unit ++ rest))

namespace InUnits

/-- A unit before units is one more of them. -/
theorem next
    {kind : UnitKind}
    {unit : List Char}
    (isUnit : IsUnit kind unit rest)
    (inUnits : InUnits rest) :
    InUnits (unit ++ rest) :=
  .unit .nil isUnit inUnits

/-- Layout may be put in front. -/
theorem ofSkipLayout
    (inUnits : InUnits (skipLayout .between cs)) :
    InUnits cs := by
  rcases exists_layout cs with nothing | ⟨layout, complete, shape⟩
  · exact .ends nothing
  · rw [shape]
    generalize skipLayout .between cs = last at inUnits
    cases inUnits with
    | ends nothing => exact .ends (by rw [complete.skipLayout_append, nothing])
    | unit completeGap isUnit inUnits =>
        rw [← List.append_assoc]
        exact .unit (complete.append completeGap) isUnit inUnits

end InUnits

/--
Whether a matcher takes nothing but units and layout off a text, if what it leaves is
of a given kind.
-/
def TakesUnits
    (ends : List Char → Prop)
    (m : Matcher α) :
    Prop :=
  ∀ ⦃cs value rest⦄, (m cs).matched? = some (value, rest) → ends rest → InUnits cs

namespace TakesUnits

variable {ends : List Char → Prop} {m : Matcher α}

theorem pure
    (value : α) :
    TakesUnits InUnits (pure value : Matcher α) := by
  intro cs found rest matched inUnits
  cases matched
  exact inUnits

/-- Two matchers in a row take units if both do. -/
theorem bind
    {next : α → Matcher β}
    (first : TakesUnits InUnits m)
    (second : ∀ value, TakesUnits ends (next value)) :
    TakesUnits ends (m >>= next) := by
  intro cs value rest matched isEnd
  rw [matched?_bind] at matched
  obtain ⟨⟨found, behind⟩, isFirst, isSecond⟩ := Option.bind_eq_some_iff.mp matched
  exact first isFirst (second found isSecond isEnd)

/-- A choice takes units if both choices do. -/
theorem orElse
    {other : Matcher α}
    (first : TakesUnits ends m)
    (second : TakesUnits ends other) :
    TakesUnits ends (m.orElse other) := by
  intro cs value rest matched isEnd
  rw [matched?_orElse] at matched
  rcases Option.or_eq_some_iff.mp matched with found | ⟨-, found⟩
  · exact first found isEnd
  · exact second found isEnd

theorem firstOf
    {alternatives : List (Matcher α)}
    (each : ∀ m ∈ alternatives, TakesUnits ends m) :
    TakesUnits ends (firstOf alternatives) := by
  induction alternatives with
  | nil =>
      intro cs value rest matched
      simp at matched
  | cons m alternatives inductionHypothesis =>
      obtain ⟨first, others⟩ := List.forall_mem_cons.mp each
      exact first.orElse (inductionHypothesis others)

theorem rule
    (takes : TakesUnits ends m) :
    TakesUnits ends m.rule := by
  intro cs value rest matched isEnd
  rw [matched?_rule] at matched
  exact takes matched isEnd

theorem optional
    (takes : TakesUnits InUnits m) :
    TakesUnits InUnits m.optional :=
  (takes.bind fun value => pure (some value)).orElse (pure none)

/-- A repeated matcher takes units if it does so once. -/
theorem many
    (takes : TakesUnits InUnits m) :
    TakesUnits InUnits m.many := by
  have upTo : ∀ count, TakesUnits InUnits (m.upTo count) := by
    intro count
    induction count with
    | zero => exact pure []
    | succ count inductionHypothesis =>
        exact (takes.bind fun value => inductionHypothesis.bind fun values =>
          pure (value :: values)).orElse (pure [])
  exact fun cs value rest matched => upTo (cs.length + 1) matched

theorem layout :
    TakesUnits InUnits Grammar.layout := by
  intro cs value rest matched inUnits
  cases matched
  exact inUnits.ofSkipLayout

theorem left :
    TakesUnits InUnits Matcher.left := by
  intro cs value rest matched inUnits
  cases matched
  exact inUnits

theorem spaced
    (takes : TakesUnits InUnits m) :
    TakesUnits InUnits (Grammar.spaced m) :=
  takes.bind fun value => layout.bind fun _ => pure value

theorem separated
    (takes : TakesUnits InUnits m)
    (comma : TakesUnits InUnits (sign ',')) :
    TakesUnits InUnits (Grammar.separated m) :=
  takes.bind fun first =>
    (layout.bind fun _ => comma.bind fun _ => layout.bind fun _ => takes).many.bind
      fun others => pure (first :: others)

theorem repeated
    (takes : TakesUnits InUnits m) :
    TakesUnits InUnits (Grammar.repeated m) :=
  (layout.bind fun _ => takes).many

theorem possibly
    (takes : TakesUnits InUnits m) :
    TakesUnits InUnits (Grammar.possibly m) :=
  (layout.bind fun _ => takes).optional

/-- The value of the last part plays no part. -/
theorem answer
    {f : α → β}
    (takes : TakesUnits ends m) :
    TakesUnits ends (do let value ← m; return f value) := by
  intro cs value rest matched isEnd
  rw [matched?_bind] at matched
  obtain ⟨⟨found, behind⟩, isFound, same⟩ := Option.bind_eq_some_iff.mp matched
  cases same
  exact takes isFound isEnd

/-- A scanner that takes one unit. -/
theorem token
    {scan : List Char → Option (α × List Char)}
    (takes : ∀ ⦃cs value rest⦄, scan cs = some (value, rest) →
      ∃ kind unit, IsUnit kind unit rest ∧ cs = unit ++ rest) :
    TakesUnits InUnits (token scan) := by
  intro cs value rest matched inUnits
  rw [matched?_token] at matched
  obtain ⟨kind, unit, isUnit, rfl⟩ := takes matched
  exact .next isUnit inUnits

end TakesUnits

section Units

/-- A sign is matched where it stands. -/
theorem eq_of_matched?_sign
    {c : Char}
    {value : Unit}
    (matched : (sign c cs).matched? = some (value, rest)) :
    cs = c :: rest := by
  cases cs with
  | nil => cases matched
  | cons d others =>
      rw [matched?_sign_cons, Option.ite_none_right_eq_some] at matched
      obtain ⟨rfl, same⟩ := matched
      cases same
      rfl

/-- A sign that stands for itself is a unit. -/
theorem takesUnits_sign
    {c : Char}
    (listed : c ∈ ['(', ')', ',', ';']) :
    TakesUnits InUnits (sign c) := by
  intro cs value rest matched inUnits
  obtain rfl := eq_of_matched?_sign matched
  exact .next (.sign listed) inUnits

/-- The sign between the operands of a join is a unit. -/
theorem takesUnits_equals :
    TakesUnits InUnits (sign '=') := by
  intro cs value rest matched inUnits
  obtain rfl := eq_of_matched?_sign matched
  have longest : ∀ c longer, (['='] ++ [c], longer) ∈ Grammar.operatorSigns →
      Text.Stops (· == c) rest := by
    intro c longer listed
    simp [Grammar.operatorSigns] at listed
  exact .next (.operator (by decide : (['='], Comparison.eq) ∈ Grammar.operatorSigns) longest)
    inUnits

/-- A keyword is a unit. -/
theorem exists_word
    {keyword : List Char}
    {value : Unit}
    (reserved : keyword ∈ reservedWords)
    (found : scanWord? keyword cs = some (value, rest)) :
    ∃ kind unit, IsUnit kind unit rest ∧ cs = unit ++ rest := by
  obtain ⟨text, shape, lowered, stops⟩ := scanWord?_eq_some_iff.mp found
  exact ⟨_, text, .word (isWord_of_reserved (lowered ▸ reserved)) stops, shape⟩

theorem takesUnits_keyword
    {word : String}
    (reserved : word.toList ∈ reservedWords) :
    TakesUnits InUnits (keyword word) :=
  .token fun _ _ _ => exists_word reserved

/-- The direction of a sort key is a unit, or nothing. -/
theorem takesUnits_direction :
    TakesUnits InUnits direction := by
  intro cs descending rest matched inUnits
  rw [matched?_direction] at matched
  have ofWord : ∀ {keyword : List Char} {value : Bool}, keyword ∈ reservedWords →
      (scanWord? keyword cs).map (fun found => (value, found.2)) = some (descending, rest) →
        InUnits cs := by
    intro keyword value reserved found
    obtain ⟨⟨⟨⟩, behind⟩, isWord, same⟩ := Option.map_eq_some_iff.mp found
    cases same
    obtain ⟨kind, unit, isUnit, rfl⟩ := exists_word reserved isWord
    exact .next isUnit inUnits
  rcases Option.or_eq_some_iff.mp matched with found | ⟨-, found⟩
  · exact ofWord (by decide) found
  · exact ofWord (by decide) found

theorem takesUnits_operator :
    TakesUnits InUnits operator := by
  refine .token fun cs op rest found => ?_
  rw [scanOperator?_eq_or] at found
  rcases Option.or_eq_some_iff.mp found with isSpelling | ⟨-, isLike⟩
  · obtain ⟨spelling, isUnit, shape⟩ := exists_spelling isSpelling
    exact ⟨_, spelling, isUnit, shape⟩
  · obtain ⟨⟨⟨⟩, behind⟩, isWord, same⟩ := Option.map_eq_some_iff.mp isLike
    cases same
    exact exists_word (by decide) isWord

theorem takesUnits_name :
    TakesUnits InUnits Grammar.name := by
  refine .token fun cs name rest found => ?_
  obtain ⟨proper, shape, stops⟩ := scanName?_eq_some_iff.mp found
  exact ⟨_, _, .word proper.isWord stops, shape⟩

/-- A property of an item is a unit. -/
theorem takesUnits_member :
    TakesUnits InUnits Grammar.member := by
  intro cs e rest matched inUnits
  simp only [Grammar.member, matched?_rule, matched?_bind, Grammar.name, matched?_token,
    Option.bind_eq_some_iff] at matched
  obtain ⟨⟨item, behindItem⟩, isItem, ⟨⟨⟩, behindPoint⟩, isPoint, ⟨property, behind⟩, isProperty,
    answered⟩ := matched
  cases answered
  obtain ⟨properItem, rfl, -⟩ := scanName?_eq_some_iff.mp isItem
  obtain rfl := eq_of_matched?_sign isPoint
  obtain ⟨properProperty, rfl, stops⟩ := scanName?_eq_some_iff.mp isProperty
  rw [← List.cons_append, ← List.append_assoc]
  exact .next (.member properItem properProperty stops) inUnits

/-- A parameter is a unit. -/
theorem takesUnits_parameter :
    TakesUnits InUnits Grammar.parameter := by
  intro cs e rest matched inUnits
  simp only [Grammar.parameter, matched?_rule, matched?_bind, Grammar.name, matched?_token,
    Option.bind_eq_some_iff] at matched
  obtain ⟨⟨⟨⟩, behindSign⟩, isSign, ⟨name, behind⟩, isName, answered⟩ := matched
  cases answered
  obtain rfl := eq_of_matched?_sign isSign
  obtain ⟨proper, rfl, stops⟩ := scanName?_eq_some_iff.mp isName
  rw [← List.cons_append]
  exact .next (.parameter proper stops) inUnits

theorem takesUnits_integer :
    TakesUnits InUnits (token scanInteger?) := by
  refine .token fun cs value rest found => ?_
  obtain ⟨negative, digits, rfl, proper, shape, stops⟩ := scanInteger?_eq_some_iff.mp found
  exact ⟨_, _, .integer proper stops, shape⟩

theorem takesUnits_text :
    TakesUnits InUnits (token scanText?) := by
  have ofQuote : ∀ {quote : Char} {others value rest : List Char}, quote = '"' ∨ quote = '\'' →
      scanQuoted? quote others = some (value, rest) →
        ∃ kind unit, IsUnit kind unit rest ∧ quote :: others = unit ++ rest := by
    intro quote others value rest isQuote found
    obtain ⟨rfl, stops⟩ := scanQuoted?_eq_some_iff.mp found
    exact ⟨_, quote :: (Expr.doubled quote value ++ [quote]), .text isQuote stops, by simp⟩
  refine .token fun cs s rest found => ?_
  unfold scanText? at found
  split at found
  · obtain ⟨⟨value, behind⟩, isQuoted, same⟩ := Option.map_eq_some_iff.mp found
    cases same
    exact ofQuote (.inl rfl) isQuoted
  · obtain ⟨⟨value, behind⟩, isQuoted, same⟩ := Option.map_eq_some_iff.mp found
    cases same
    exact ofQuote (.inr rfl) isQuoted
  · cases found

theorem takesUnits_literal :
    TakesUnits InUnits literal := by
  refine ((TakesUnits.firstOf fun alternative isAlternative => ?_).bind fun reading =>
    .pure _).rule
  simp only [List.mem_cons, List.not_mem_nil, or_false] at isAlternative
  rcases isAlternative with rfl | rfl | rfl | rfl
  · exact (takesUnits_keyword (by decide : "null".toList ∈ reservedWords)).bind fun _ => .pure _
  · refine TakesUnits.bind (.token fun cs parts rest found => ?_) fun parts => .pure _
    obtain ⟨proper, shape, stops⟩ := scanReal?_eq_some_iff.mp found
    exact ⟨_, _, .real proper stops, shape⟩
  · refine TakesUnits.left.bind fun start => takesUnits_integer.bind fun digits => ?_
    split
    · exact .pure _
    · exact .pure _
  · exact takesUnits_text.bind fun _ => .pure _

/-- The end of the text is reached behind units and layout only. -/
theorem takesUnits_endOfText :
    TakesUnits (fun _ => True) endOfText := by
  intro cs value rest matched _
  rw [endOfText, matched?_token, Option.ite_none_right_eq_some] at matched
  obtain ⟨empty, -⟩ := matched
  rw [List.isEmpty_iff.mp empty]
  exact .ends rfl

end Units

section Expressions

variable {m : Matcher (Reading Expr)}

/-- A call is made of units if its arguments are. -/
theorem takesUnits_call
    (nested : TakesUnits InUnits m) :
    TakesUnits InUnits (call m) :=
  (takesUnits_name.spaced.bind fun _ => (takesUnits_sign (by simp)).spaced.bind fun _ =>
    (nested.separated (takesUnits_sign (by simp))).optional.spaced.bind fun _ =>
      (takesUnits_sign (by simp)).bind fun _ => .pure _).rule

/-- An operand is made of units if expressions inside it are. -/
theorem takesUnits_operand
    (nested : TakesUnits InUnits m) :
    TakesUnits InUnits (operand m) := by
  refine (TakesUnits.firstOf fun alternative isAlternative => ?_).rule
  simp only [List.mem_cons, List.not_mem_nil, or_false] at isAlternative
  rcases isAlternative with rfl | rfl | rfl | rfl | rfl | rfl
  · exact takesUnits_call nested
  · exact takesUnits_member.bind fun _ => .pure _
  · exact takesUnits_literal
  · exact takesUnits_parameter.bind fun _ => .pure _
  · exact (takesUnits_sign (by simp)).spaced.bind fun _ => nested.spaced.bind fun _ =>
      (takesUnits_sign (by simp)).bind fun _ => .pure _
  · exact takesUnits_name.bind fun _ => .pure _

/-- A comparison is made of units if expressions inside it are. -/
theorem takesUnits_comparison
    (nested : TakesUnits InUnits m) :
    TakesUnits InUnits (comparison m) := by
  have second : TakesUnits InUnits
      (do layout; let op ← spaced operator; let other ← operand m; return (op, other)) :=
    TakesUnits.layout.bind fun _ => takesUnits_operator.spaced.bind fun _ =>
      (takesUnits_operand nested).bind fun _ => .pure _
  refine ((takesUnits_operand nested).bind fun first => second.optional.bind fun found => ?_).rule
  cases found with
  | none => exact .pure _
  | some found => exact .pure _

/-- A negation is made of units if expressions inside it are. -/
theorem takesUnits_negation
    (nested : TakesUnits InUnits m)
    (depth : Nat) :
    TakesUnits InUnits (negation m depth) := by
  induction depth with
  | zero =>
      intro cs value rest matched
      cases matched
  | succ depth inductionHypothesis =>
      refine (TakesUnits.orElse ?_ (takesUnits_comparison nested)).rule
      exact (takesUnits_keyword (by decide)).spaced.bind fun _ => inductionHypothesis.bind
        fun _ => .pure _

/-- A chain is made of units if its parts are. -/
theorem takesUnits_keywordChain
    {word : String}
    {combine : Expr → Expr → Expr}
    (reserved : word.toList ∈ reservedWords)
    (parts : TakesUnits InUnits m) :
    TakesUnits InUnits (keywordChain word combine m) :=
  (parts.bind fun _ => (TakesUnits.layout.bind fun _ =>
    (takesUnits_keyword reserved).spaced.bind fun _ => parts).many.bind fun _ => .pure _).rule

/-- An expression is made of units at every depth. -/
theorem takesUnits_exprWithin
    (depth : Nat) :
    TakesUnits InUnits (exprWithin depth) := by
  induction depth with
  | zero =>
      intro cs value rest matched
      cases matched
  | succ depth inductionHypothesis =>
      have unaries : TakesUnits InUnits (unary (exprWithin depth)) :=
        fun cs value rest matched => takesUnits_negation inductionHypothesis _ matched
      exact (takesUnits_keywordChain (by decide)
        (takesUnits_keywordChain (by decide) unaries)).rule

theorem takesUnits_expr :
    TakesUnits InUnits expr :=
  fun _ _ _ matched => takesUnits_exprWithin _ matched

end Expressions

section Queries

theorem takesUnits_fromClause :
    TakesUnits InUnits fromClause :=
  ((takesUnits_keyword (by decide)).spaced.bind fun _ => takesUnits_name.spaced.bind fun _ =>
    (takesUnits_keyword (by decide)).spaced.bind fun _ => takesUnits_name.bind fun _ =>
      .pure _).rule

theorem takesUnits_joinClause :
    TakesUnits InUnits joinClause :=
  ((takesUnits_keyword (by decide)).spaced.bind fun _ => takesUnits_name.spaced.bind fun _ =>
    (takesUnits_keyword (by decide)).spaced.bind fun _ => takesUnits_name.spaced.bind fun _ =>
      (takesUnits_keyword (by decide)).spaced.bind fun _ =>
        (takesUnits_operand takesUnits_expr).spaced.bind fun _ =>
          takesUnits_equals.spaced.bind fun _ =>
            (takesUnits_operand takesUnits_expr).bind fun _ => .pure _).rule

theorem takesUnits_whereClause :
    TakesUnits InUnits whereClause :=
  ((takesUnits_keyword (by decide)).spaced.bind fun _ => takesUnits_expr).rule

theorem takesUnits_selectClause :
    TakesUnits InUnits selectClause :=
  ((takesUnits_keyword (by decide)).spaced.bind fun _ =>
    (takesUnits_expr.separated (takesUnits_sign (by simp))).bind fun _ => .pure _).rule

theorem takesUnits_sortKey :
    TakesUnits InUnits sortKey :=
  (takesUnits_expr.bind fun _ =>
    (TakesUnits.layout.bind fun _ => takesUnits_direction).optional.bind fun _ => .pure _).rule

theorem takesUnits_orderClause :
    TakesUnits InUnits orderClause :=
  ((takesUnits_keyword (by decide)).spaced.bind fun _ =>
    (takesUnits_keyword (by decide)).spaced.bind fun _ =>
      (takesUnits_sortKey.separated (takesUnits_sign (by simp))).bind fun _ => .pure _).rule

theorem takesUnits_takeClause :
    TakesUnits InUnits takeClause := by
  refine ((takesUnits_keyword (by decide)).spaced.bind fun _ => TakesUnits.left.bind fun start =>
    takesUnits_integer.bind fun digits => ?_).rule
  split
  · exact .pure _
  · exact .pure _

/-- A whole query is made of units. -/
theorem takesUnits_query :
    TakesUnits (fun _ => True) Grammar.query := by
  refine (TakesUnits.layout.bind fun _ => takesUnits_fromClause.bind fun source => ?_).rule
  refine takesUnits_joinClause.repeated.bind fun joins => ?_
  refine takesUnits_whereClause.repeated.bind fun filters => ?_
  refine takesUnits_selectClause.possibly.bind fun projection => ?_
  refine takesUnits_orderClause.possibly.bind fun ordering => ?_
  refine takesUnits_takeClause.possibly.bind fun limit => ?_
  refine (takesUnits_sign (by simp)).possibly.bind fun _ => ?_
  exact TakesUnits.layout.bind fun _ => takesUnits_endOfText.answer

/-- The text of a query is nothing but units and layout. -/
theorem inUnits_of_parse
    {text : String}
    {query : Query}
    (parsed : Query.parse text = .ok query) :
    InUnits text.toList := by
  obtain ⟨rest, matched⟩ := parse_eq_ok_iff.mp parsed
  exact takesUnits_query matched trivial

end Queries

end FullTextQuery.Query
