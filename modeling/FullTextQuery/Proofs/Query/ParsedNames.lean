import FullTextQuery.Proofs.Query.Canonical
import FullTextQuery.Proofs.Query.Matching

namespace FullTextQuery.Query

/-!
# What queries that are read contain

Every name in a query that is read from a text is an identifier, every function is in
lower case, and the characters of its text literals are characters of the text.  Each
matcher answers only values of its kind, given that the parts it is made of do.
-/

open Matcher Grammar

variable {α β : Type} {allowed : Char → Prop} {holds : α → Prop} {holds' : β → Prop}
  {m : Matcher α}

/-- Doubling quotes brings in no other characters. -/
theorem mem_doubled
    {quote c : Char}
    {cs : List Char} :
    c ∈ Expr.doubled quote cs ↔ c ∈ cs := by
  simp only [Expr.doubled, List.mem_flatMap]
  constructor
  · rintro ⟨d, member, copied⟩
    split at copied <;> simp_all
  · intro member
    refine ⟨c, member, ?_⟩
    split <;> simp

/-- A text is scanned between two quotes, with those inside it doubled. -/
theorem exists_quoted_of_scanText?
    {cs rest : List Char}
    {text : String}
    (found : scanText? cs = some (text, rest)) :
    ∃ quote, cs = quote :: (Expr.doubled quote text.toList ++ quote :: rest) := by
  unfold scanText? at found
  split at found
  · obtain ⟨⟨value, after⟩, read, same⟩ := Option.map_eq_some_iff.mp found
    cases same
    obtain ⟨rfl, -⟩ := scanQuoted?_eq_some_iff.mp read
    exact ⟨'"', by simp⟩
  · obtain ⟨⟨value, after⟩, read, same⟩ := Option.map_eq_some_iff.mp found
    cases same
    obtain ⟨rfl, -⟩ := scanQuoted?_eq_some_iff.mp read
    exact ⟨'\'', by simp⟩
  · cases found

/-- A property that the ends of a text share with it. -/
structure EndProperty where
  holds : List Char → Prop
  ofSuffix : ∀ ⦃cs rest : List Char⦄, rest <:+ cs → holds cs → holds rest

/-- Whether a matcher answers only certain values of texts with a property. -/
def Answers
    (texts : EndProperty)
    (m : Matcher α)
    (holds : α → Prop) :
    Prop :=
  ∀ ⦃cs : List Char⦄, texts.holds cs → ∀ ⦃value rest⦄,
    (m cs).matched? = some (value, rest) → holds value ∧ texts.holds rest

namespace Answers

variable {texts : EndProperty}

/-- A value is answered with the whole text left. -/
theorem pure
    {value : α}
    (good : holds value) :
    Answers texts (Pure.pure value) holds := by
  intro cs inText _ rest matched
  rw [matched?_pure] at matched
  cases matched
  exact ⟨good, inText⟩

theorem fail :
    Answers texts Matcher.fail holds := by
  intro cs _ value rest matched
  rw [matched?_fail] at matched
  cases matched

/-- Two matchers in a row answer what the second answers for values of the first. -/
theorem bind
    {next : α → Matcher β}
    (first : Answers texts m holds)
    (second : ∀ value, holds value → Answers texts (next value) holds') :
    Answers texts (m >>= next) holds' := by
  intro cs inText result rest matched
  rw [matched?_bind] at matched
  obtain ⟨⟨value, between⟩, found, matched⟩ := Option.bind_eq_some_iff.mp matched
  obtain ⟨good, inBetween⟩ := first inText found
  exact second value good inBetween matched

theorem andThen
    {next : α → Matcher β}
    (first : Answers texts m holds)
    (second : ∀ value, holds value → Answers texts (next value) holds') :
    Answers texts (m.andThen next) holds' :=
  bind first second

/-- A choice answers what both choices answer. -/
theorem orElse
    {other : Matcher α}
    (first : Answers texts m holds)
    (second : Answers texts other holds) :
    Answers texts (m.orElse other) holds := by
  intro cs inText value rest matched
  rw [matched?_orElse] at matched
  rcases Option.or_eq_some_iff.mp matched with found | ⟨-, found⟩
  · exact first inText found
  · exact second inText found

/-- A choice of several answers what each of them answers. -/
theorem firstOf
    {alternatives : List (Matcher α)}
    (each : ∀ m ∈ alternatives, Answers texts m holds) :
    Answers texts (firstOf alternatives) holds := by
  induction alternatives with
  | nil => exact fail
  | cons m alternatives inductionHypothesis =>
      obtain ⟨first, others⟩ := List.forall_mem_cons.mp each
      exact first.orElse (inductionHypothesis others)

/-- A rule answers what its body answers. -/
theorem rule
    (answers : Answers texts m holds) :
    Answers texts m.rule holds := by
  intro cs inText value rest matched
  rw [matched?_rule] at matched
  exact answers inText matched

/-- An optional part answers nothing, or what the part answers. -/
theorem optional
    (answers : Answers texts m holds) :
    Answers texts m.optional (fun found => ∀ value ∈ found, holds value) :=
  (answers.andThen fun value good => pure (by simpa using good)).orElse (pure (by simp))

theorem upTo
    (answers : Answers texts m holds)
    (count : Nat) :
    Answers texts (m.upTo count) (fun values => ∀ value ∈ values, holds value) := by
  induction count with
  | zero => exact pure (by simp)
  | succ count inductionHypothesis =>
      refine orElse (answers.andThen fun value good => ?_) (pure (by simp))
      exact inductionHypothesis.andThen fun values allGood =>
        pure (List.forall_mem_cons.mpr ⟨good, allGood⟩)

/-- A repeated part answers values that the part answers. -/
theorem many
    (answers : Answers texts m holds) :
    Answers texts m.many (fun values => ∀ value ∈ values, holds value) :=
  fun cs inText => answers.upTo (cs.length + 1) inText

/-- A scanner answers what it takes off the front. -/
theorem token
    {scan : List Char → Option (α × List Char)}
    (scans : ∀ ⦃cs value rest⦄, scan cs = some (value, rest) →
      rest <:+ cs ∧ (texts.holds cs → holds value)) :
    Answers texts (token scan) holds := by
  intro cs inText value rest matched
  rw [matched?_token] at matched
  obtain ⟨suffix, good⟩ := scans matched
  exact ⟨good inText, texts.ofSuffix suffix inText⟩

theorem sign
    (expected : Char) :
    Answers texts (sign expected) (fun _ => True) := by
  intro cs inText value rest matched
  cases cs with
  | nil => simp at matched
  | cons c cs =>
      rw [matched?_sign_cons] at matched
      split at matched
      · cases matched
        exact ⟨trivial, texts.ofSuffix (List.suffix_cons _ _) inText⟩
      · cases matched

/-- The characters left are those of one of the texts. -/
theorem left :
    Answers texts left (fun count => ∃ cs, texts.holds cs ∧ cs.length = count) := by
  intro cs inText value rest matched
  cases matched
  exact ⟨⟨cs, inText, rfl⟩, inText⟩

theorem layout :
    Answers texts layout (fun _ => True) := by
  intro cs inText value rest matched
  cases matched
  exact ⟨trivial, texts.ofSuffix (skipLayout_suffix cs) inText⟩

theorem spaced
    (answers : Answers texts m holds) :
    Answers texts (spaced m) holds :=
  answers.bind fun _ good => layout.bind fun _ _ => pure good

/-- A list with commas answers values that its parts answer. -/
theorem separated
    (answers : Answers texts m holds) :
    Answers texts (separated m) (fun values => ∀ value ∈ values, holds value) :=
  answers.bind fun _ good =>
    (layout.bind fun _ _ => (sign ',').bind fun _ _ => layout.bind fun _ _ => answers).many.bind
      fun _ allGood => pure (List.forall_mem_cons.mpr ⟨good, allGood⟩)

theorem repeated
    (answers : Answers texts m holds) :
    Answers texts (repeated m) (fun values => ∀ value ∈ values, holds value) :=
  (layout.bind fun _ _ => answers).many

theorem possibly
    (answers : Answers texts m holds) :
    Answers texts (possibly m) (fun found => ∀ value ∈ found, holds value) :=
  (layout.bind fun _ _ => answers).optional

theorem keyword
    (word : String) :
    Answers texts (keyword word) (fun _ => True) := by
  refine token fun cs value rest found => ?_
  obtain ⟨text, rfl, -⟩ := scanWord?_eq_some_iff.mp found
  exact ⟨List.suffix_append _ _, fun _ => trivial⟩

theorem name :
    Answers texts name IsName := by
  refine token fun cs value rest found => ?_
  obtain ⟨proper, rfl, -⟩ := scanName?_eq_some_iff.mp found
  exact ⟨List.suffix_append _ _, fun _ => proper⟩

theorem digits :
    Answers texts (Matcher.token scanInteger?) (fun _ => True) := by
  refine token fun cs digits rest found => ?_
  obtain ⟨_, _, -, -, rfl, -⟩ := scanInteger?_eq_some_iff.mp found
  exact ⟨List.suffix_append _ _, fun _ => trivial⟩

theorem fraction :
    Answers texts (Matcher.token scanReal?) (fun _ => True) := by
  refine token fun cs parts rest found => ?_
  obtain ⟨-, rfl, -⟩ := scanReal?_eq_some_iff.mp found
  exact ⟨List.suffix_append _ _, fun _ => trivial⟩

theorem operator :
    Answers texts operator (fun _ => True) := by
  refine token fun cs op rest found => ⟨?_, fun _ => trivial⟩
  unfold scanOperator? at found
  split at found
  · cases found
    exact List.drop_suffix _ _
  · obtain ⟨⟨⟨⟩, after⟩, isLike, same⟩ := Option.map_eq_some_iff.mp found
    cases same
    obtain ⟨text, rfl, -⟩ := scanWord?_eq_some_iff.mp isLike
    exact List.suffix_append _ _

/-- A text literal has only characters of the text it stands in. -/
theorem text
    {holds : String → Prop}
    (inside : ∀ {cs : List Char} {s : String}, texts.holds cs → s.toList ⊆ cs → holds s) :
    Answers texts (Matcher.token scanText?) holds := by
  refine token fun cs s rest found => ?_
  obtain ⟨quote, rfl⟩ := exists_quoted_of_scanText? found
  refine ⟨⟨quote :: (Expr.doubled quote s.toList ++ [quote]), by simp⟩, fun inText => ?_⟩
  exact inside inText fun c member => by simp [mem_doubled, member]

theorem direction :
    Answers texts direction (fun _ => True) := by
  refine token fun cs descending rest found => ⟨?_, fun _ => trivial⟩
  split at found
  · rename_i after isAsc
    split at found
    · cases found
    · cases found
      obtain ⟨text, rfl, -⟩ := afterWord?_eq_some_iff.mp isAsc
      exact List.suffix_append _ _
  · obtain ⟨⟨⟨⟩, after⟩, isDesc, same⟩ := Option.map_eq_some_iff.mp found
    cases same
    obtain ⟨text, rfl, -⟩ := scanWord?_eq_some_iff.mp isDesc
    exact List.suffix_append _ _

theorem endOfText :
    Answers texts endOfText (fun _ => True) := by
  refine token fun cs value rest found => ⟨?_, fun _ => trivial⟩
  split at found
  · cases found
    exact List.suffix_rfl
  · cases found

end Answers

/-- Being made of certain characters. -/
def charactersIn
    (allowed : Char → Prop) :
    EndProperty where
  holds cs := ∀ c ∈ cs, allowed c
  ofSuffix _ _ suffix inText c member := inText c (suffix.subset member)

/-- Whether a matcher answers only certain values of texts of certain characters. -/
abbrev Yields
    (allowed : Char → Prop)
    (m : Matcher α)
    (holds : α → Prop) :
    Prop :=
  Answers (charactersIn allowed) m holds

/-- Whether a reading is a misfit or a value of a kind. -/
def IfFits
    (holds : α → Prop)
    (reading : Reading α) :
    Prop :=
  ∀ value, reading = .ok value → holds value

theorem ifFits_ok
    {value : α} :
    IfFits holds (.ok value) ↔ holds value := by
  simp [IfFits]

theorem ifFits_error
    {misfit : MisfitInteger} :
    IfFits holds (.error misfit) := by
  simp [IfFits]

/-- A reading after another is of its kind if the other is of its own. -/
theorem IfFits.bind
    {reading : Reading α}
    {next : α → Reading β}
    (first : IfFits holds reading)
    (second : ∀ value, holds value → IfFits holds' (next value)) :
    IfFits holds' (reading >>= next) := by
  cases reading with
  | error misfit => exact ifFits_error
  | ok value => exact second value (first value rfl)

theorem IfFits.map
    {reading : Reading α}
    {f : α → β}
    (first : IfFits holds reading)
    (implies : ∀ value, holds value → holds' (f value)) :
    IfFits holds' (reading.map f) := by
  cases reading with
  | error misfit => exact ifFits_error
  | ok value => exact ifFits_ok.mpr (implies value (first value rfl))

/-- Readings that are collected are all of their kind. -/
theorem ifFits_collect
    {readings : List (Reading α)}
    (each : ∀ reading ∈ readings, IfFits holds reading) :
    IfFits (fun values => ∀ value ∈ values, holds value) (collect readings) := by
  induction readings with
  | nil => exact ifFits_ok.mpr (by simp)
  | cons reading readings inductionHypothesis =>
      obtain ⟨first, others⟩ := List.forall_mem_cons.mp each
      exact first.bind fun value good => (inductionHypothesis others).bind fun values allGood =>
        ifFits_ok.mpr (List.forall_mem_cons.mpr ⟨good, allGood⟩)

end FullTextQuery.Query

namespace FullTextQuery.Expr

/-- Whether an expression is no text literal, or one of certain characters. -/
def TextWithin
    (allowed : Char → Prop)
    (e : Expr) :
    Prop :=
  ∀ s : String, e = .literal (.text s) → ∀ c ∈ s.toList, allowed c

/-- Whether an expression can stand in a text of certain characters. -/
def Written
    (allowed : Char → Prop)
    (e : Expr) :
    Prop :=
  e.Everywhere fun part => part.HasNames ∧ part.TextWithin allowed

end FullTextQuery.Expr

namespace FullTextQuery.Query

open Matcher Grammar

section Expressions

variable {allowed : Char → Prop} {m : Matcher (Reading Expr)} {left right : Expr}

/-- A comparison can stand in a text if its operands can. -/
theorem written_compare
    (leftWritten : left.Written allowed)
    (rightWritten : right.Written allowed)
    (op : Comparison) :
    (Expr.compare left op right).Written allowed :=
  Expr.everywhere_compare.mpr ⟨⟨trivial, by simp [Expr.TextWithin]⟩, leftWritten, rightWritten⟩

/-- A conjunction can stand in a text if its parts can. -/
theorem written_and
    (leftWritten : left.Written allowed)
    (rightWritten : right.Written allowed) :
    (Expr.and left right).Written allowed :=
  Expr.everywhere_and.mpr ⟨⟨trivial, by simp [Expr.TextWithin]⟩, leftWritten, rightWritten⟩

/-- A disjunction can stand in a text if its parts can. -/
theorem written_or
    (leftWritten : left.Written allowed)
    (rightWritten : right.Written allowed) :
    (Expr.or left right).Written allowed :=
  Expr.everywhere_or.mpr ⟨⟨trivial, by simp [Expr.TextWithin]⟩, leftWritten, rightWritten⟩

/-- A negation can stand in a text if its operand can. -/
theorem written_not
    (operandWritten : left.Written allowed) :
    (Expr.not left).Written allowed :=
  Expr.everywhere_not.mpr ⟨⟨trivial, by simp [Expr.TextWithin]⟩, operandWritten⟩

/-- A function in lower case is an identifier as well. -/
theorem IsName.lowered
    {name : String}
    (proper : IsName name) :
    IsName (String.ofList (name.toList.map Char.toLower)) := by
  obtain ⟨c, others, shape, start, all⟩ := isIdentifier_iff.mp proper.identifier
  refine ⟨isIdentifier_iff.mpr ⟨c.toLower, others.map Char.toLower, by simp [shape],
    by rw [isNameStart_toLower, start], ?_⟩, ?_⟩
  · intro lowered member
    obtain ⟨d, original, rfl⟩ := List.mem_map.mp member
    rw [isNameChar_toLower]
    exact all d original
  · have twice :
        (name.toList.map Char.toLower).map Char.toLower = name.toList.map Char.toLower := by
      simp
    rw [String.toList_ofList, twice]
    exact proper.notReserved

/-- A text literal that is read has the characters of its text. -/
theorem yields_textLiteral :
    Yields allowed textLiteral (IfFits fun value => (Expr.literal value).TextWithin allowed) := by
  refine .bind (.text fun inText inside c member => inText c (inside member))
    fun s within => ?_
  exact .pure (ifFits_ok.mpr (by simpa [Expr.TextWithin] using within))

/-- A literal that is read can stand in its text. -/
theorem yields_literal :
    Yields allowed literal (IfFits (Expr.Written allowed)) := by
  have noText : ∀ value : Value, (∀ s, value ≠ .text s) →
      IfFits (fun value => (Expr.literal value).TextWithin allowed) (.ok value) :=
    fun value other => ifFits_ok.mpr fun s same => absurd (Expr.literal.inj same) (other s)
  have alternatives :
      Yields allowed (firstOf [nullLiteral, realLiteral, integerLiteral, textLiteral])
      (IfFits fun value => (Expr.literal value).TextWithin allowed) := by
    have reals : Yields allowed (token scanReal?) (fun _ => True) := .fraction
    refine .firstOf fun m member => ?_
    simp only [List.mem_cons, List.not_mem_nil, or_false] at member
    rcases member with rfl | rfl | rfl | rfl
    · exact (Answers.keyword "null").bind fun _ _ => .pure (noText _ (by simp))
    · exact reals.bind fun _ _ => .pure (noText _ (by simp))
    · refine Answers.left.bind fun _ _ => Answers.digits.bind fun digits _ => ?_
      split
      · exact .pure (noText _ (by simp))
      · exact .pure ifFits_error
    · exact yields_textLiteral
  refine (alternatives.bind fun reading good => .pure (good.map fun value within => ?_)).rule
  exact Expr.everywhere_literal.mpr ⟨trivial, within⟩

theorem yields_member :
    Yields allowed member (Expr.Written allowed) :=
  (Answers.name.bind fun _ item => (Answers.sign '.').bind fun _ _ =>
    Answers.name.bind fun _ property => .pure
      (Expr.everywhere_member.mpr ⟨⟨item, property⟩, by simp [Expr.TextWithin]⟩)).rule

theorem yields_parameter :
    Yields allowed parameter (Expr.Written allowed) :=
  ((Answers.sign '@').bind fun _ _ => Answers.name.bind fun _ name => .pure
    (Expr.everywhere_parameter.mpr ⟨name, by simp [Expr.TextWithin]⟩)).rule

/-- A call that is read can stand in its text if its arguments can. -/
theorem yields_call
    (nested : Yields allowed m (IfFits (Expr.Written allowed))) :
    Yields allowed (call m) (IfFits (Expr.Written allowed)) := by
  refine (Answers.name.spaced.bind fun function proper =>
    (Answers.sign '(').spaced.bind fun _ _ =>
      nested.separated.optional.spaced.bind fun args good =>
        (Answers.sign ')').bind fun _ _ => .pure ?_).rule
  have collected : IfFits (fun values => ∀ e ∈ values, Expr.Written allowed e)
      (collect (args.getD [])) := by
    cases args with
    | none => exact ifFits_collect (by simp)
    | some readings => exact ifFits_collect (good readings rfl)
  refine collected.map fun values allWritten =>
    Expr.everywhere_call.mpr ⟨⟨⟨proper.lowered, by simp⟩, by simp [Expr.TextWithin]⟩, allWritten⟩

/-- An operand that is read can stand in its text if expressions inside it can. -/
theorem yields_operand
    (nested : Yields allowed m (IfFits (Expr.Written allowed))) :
    Yields allowed (operand m) (IfFits (Expr.Written allowed)) := by
  refine (Answers.firstOf fun alternative isAlternative => ?_).rule
  simp only [List.mem_cons, List.not_mem_nil, or_false] at isAlternative
  rcases isAlternative with rfl | rfl | rfl | rfl | rfl | rfl
  · exact yields_call nested
  · exact yields_member.andThen fun _ written => .pure (ifFits_ok.mpr written)
  · exact yields_literal
  · exact yields_parameter.andThen fun _ written => .pure (ifFits_ok.mpr written)
  · exact (Answers.sign '(').spaced.bind fun _ _ => nested.spaced.bind fun _ good =>
      (Answers.sign ')').bind fun _ _ => .pure good
  · exact Answers.name.andThen fun _ item => .pure
      (ifFits_ok.mpr (Expr.everywhere_item.mpr ⟨item, by simp [Expr.TextWithin]⟩))

/-- A comparison that is read can stand in its text if expressions inside it can. -/
theorem yields_comparison
    (nested : Yields allowed m (IfFits (Expr.Written allowed))) :
    Yields allowed (comparison m) (IfFits (Expr.Written allowed)) := by
  have second : Yields allowed
      (do layout; let op ← spaced operator; let other ← operand m; return (op, other))
      (fun found => IfFits (Expr.Written allowed) found.2) :=
    Answers.layout.bind fun _ _ => Answers.operator.spaced.bind fun _ _ =>
      (yields_operand nested).bind fun _ good => .pure good
  refine ((yields_operand nested).bind fun first good =>
    second.optional.bind fun found goodFound => ?_).rule
  cases found with
  | none => exact .pure good
  | some found =>
      exact .pure (good.bind fun _ leftWritten => (goodFound found rfl).bind
        fun _ rightWritten => ifFits_ok.mpr (written_compare leftWritten rightWritten _))

/-- A negation that is read can stand in its text if expressions inside it can. -/
theorem yields_negation
    (nested : Yields allowed m (IfFits (Expr.Written allowed)))
    (depth : Nat) :
    Yields allowed (negation m depth) (IfFits (Expr.Written allowed)) := by
  induction depth with
  | zero => exact .fail
  | succ depth inductionHypothesis =>
      refine (Answers.orElse ?_ (yields_comparison nested)).rule
      exact (Answers.keyword "not").spaced.bind fun _ _ => inductionHypothesis.bind
        fun _ good => .pure (good.map fun _ => written_not)

/-- A chain that is read can stand in its text if its parts can. -/
theorem yields_keywordChain
    {word : String}
    {combine : Expr → Expr → Expr}
    {part : Matcher (Reading Expr)}
    (yields : Yields allowed part (IfFits (Expr.Written allowed)))
    (combined : ∀ {left right : Expr}, left.Written allowed → right.Written allowed →
      (combine left right).Written allowed) :
    Yields allowed (keywordChain word combine part) (IfFits (Expr.Written allowed)) := by
  have other : Yields allowed (do layout; spaced (keyword word); part)
      (IfFits (Expr.Written allowed)) :=
    Answers.layout.bind fun _ _ => (Answers.keyword word).spaced.bind fun _ _ => yields
  refine (yields.bind fun first good => other.many.bind fun others allGood => .pure ?_).rule
  rw [groupLeft]
  induction others generalizing first with
  | nil => exact good
  | cons next others inductionHypothesis =>
      obtain ⟨goodNext, goodOthers⟩ := List.forall_mem_cons.mp allGood
      refine inductionHypothesis _ (good.bind fun _ leftWritten => goodNext.bind
        fun _ rightWritten => ifFits_ok.mpr (combined leftWritten rightWritten)) goodOthers

/-- An expression that is read can stand in its text, at every depth. -/
theorem yields_exprWithin
    (depth : Nat) :
    Yields allowed (exprWithin depth) (IfFits (Expr.Written allowed)) := by
  induction depth with
  | zero => exact .fail
  | succ depth inductionHypothesis =>
      have unaries : Yields allowed (unary (exprWithin depth)) (IfFits (Expr.Written allowed)) :=
        fun cs inText => yields_negation inductionHypothesis _ inText
      exact (yields_keywordChain (yields_keywordChain unaries written_and) written_or).rule

theorem yields_expr :
    Yields allowed expr (IfFits (Expr.Written allowed)) :=
  fun _ inText => yields_exprWithin _ inText

end Expressions

/-- Whether a query can stand in a text of certain characters. -/
structure Written
    (allowed : Char → Prop)
    (query : Query) :
    Prop where
  sources : ∀ source ∈ query.sources, IsName source.item ∧ IsName source.entity
  expressions : ∀ e ∈ query.expressions, e.Written allowed

/-- The names of a query that can stand in a text are identifiers. -/
theorem Written.named
    {query : Query}
    (written : query.Written allowed) :
    query.Named where
  sources := written.sources
  expressions := fun e member part isPart => (written.expressions e member part isPart).1

section Clauses

variable {allowed : Char → Prop}

theorem yields_fromClause :
    Yields allowed fromClause (fun source => IsName source.item ∧ IsName source.entity) :=
  ((Answers.keyword "from").spaced.bind fun _ _ => Answers.name.spaced.bind fun _ item =>
    (Answers.keyword "in").spaced.bind fun _ _ => Answers.name.bind fun _ entity =>
      .pure ⟨item, entity⟩).rule

/-- A join that is read has identifiers as names, and its operands can stand in the text. -/
theorem yields_joinClause :
    Yields allowed joinClause (IfFits fun join =>
      (IsName join.source.item ∧ IsName join.source.entity) ∧
        join.left.Written allowed ∧ join.right.Written allowed) :=
  ((Answers.keyword "join").spaced.bind fun _ _ => Answers.name.spaced.bind fun _ item =>
    (Answers.keyword "in").spaced.bind fun _ _ => Answers.name.spaced.bind fun _ entity =>
      (Answers.keyword "on").spaced.bind fun _ _ =>
        (yields_operand yields_expr).spaced.bind fun _ goodLeft =>
          (Answers.sign '=').spaced.bind fun _ _ =>
            (yields_operand yields_expr).bind fun _ goodRight =>
              .pure (goodLeft.bind fun _ leftWritten => goodRight.bind fun _ rightWritten =>
                ifFits_ok.mpr ⟨⟨item, entity⟩, leftWritten, rightWritten⟩)).rule

theorem yields_whereClause :
    Yields allowed whereClause (IfFits (Expr.Written allowed)) :=
  ((Answers.keyword "where").spaced.bind fun _ _ => yields_expr).rule

theorem yields_selectClause :
    Yields allowed selectClause (IfFits fun exprs => ∀ e ∈ exprs, Expr.Written allowed e) :=
  ((Answers.keyword "select").spaced.bind fun _ _ => yields_expr.separated.bind fun _ allGood =>
    .pure (ifFits_collect allGood)).rule

theorem yields_sortKey :
    Yields allowed sortKey (IfFits fun key => key.expr.Written allowed) := by
  refine (yields_expr.bind fun _ good =>
    (Answers.layout.bind fun _ _ => Answers.direction).optional.bind fun _ _ => .pure ?_).rule
  exact good.map fun _ written => written

theorem yields_orderClause :
    Yields allowed orderClause (IfFits fun keys => ∀ key ∈ keys, key.expr.Written allowed) :=
  ((Answers.keyword "order").spaced.bind fun _ _ => (Answers.keyword "by").spaced.bind fun _ _ =>
    yields_sortKey.separated.bind fun _ allGood => .pure (ifFits_collect allGood)).rule

theorem yields_takeClause :
    Yields allowed takeClause (IfFits fun _ => True) := by
  refine ((Answers.keyword "take").spaced.bind fun _ _ => Answers.left.bind fun _ _ =>
    Answers.digits.bind fun digits _ => ?_).rule
  split
  · exact .pure (ifFits_ok.mpr trivial)
  · exact .pure ifFits_error

/-- The clauses of a query make it up. -/
theorem written_of_clauses
    {source : Source}
    {joins : List Join}
    {filters projection : List Expr}
    {ordering : List SortKey}
    {limit? : Option UInt64}
    (inSource : IsName source.item ∧ IsName source.entity)
    (inJoins : ∀ join ∈ joins, (IsName join.source.item ∧ IsName join.source.entity) ∧
      join.left.Written allowed ∧ join.right.Written allowed)
    (inFilters : ∀ e ∈ filters, e.Written allowed)
    (inProjection : ∀ e ∈ projection, e.Written allowed)
    (inOrdering : ∀ key ∈ ordering, key.expr.Written allowed) :
    Written allowed { source, joins, filters, projection, ordering, limit? } where
  sources := by
    intro other member
    rcases List.mem_cons.mp member with rfl | joined
    · exact inSource
    · obtain ⟨join, inJoin, rfl⟩ := List.mem_map.mp joined
      exact (inJoins join inJoin).1
  expressions := by
    intro e member
    simp only [expressions, List.mem_append, List.mem_flatMap, List.mem_map, List.mem_cons,
      List.not_mem_nil, or_false] at member
    rcases member with ((isFilter | ⟨join, inJoin, rfl | rfl⟩) | isProjected) | ⟨key, isKey, rfl⟩
    · exact inFilters e isFilter
    · exact (inJoins join inJoin).2.1
    · exact (inJoins join inJoin).2.2
    · exact inProjection e isProjected
    · exact inOrdering key isKey

/-- A query that is read can stand in its text. -/
theorem yields_query :
    Yields allowed Grammar.query (IfFits (Written allowed)) := by
  refine (Answers.layout.bind fun _ _ => yields_fromClause.bind fun source inSource =>
    yields_joinClause.repeated.bind fun joins inJoins =>
      yields_whereClause.repeated.bind fun filters inFilters =>
        yields_selectClause.possibly.bind fun projection inProjection =>
          yields_orderClause.possibly.bind fun ordering inOrdering =>
            yields_takeClause.possibly.bind fun limit _ =>
              (Answers.sign ';').possibly.bind fun _ _ => Answers.layout.bind fun _ _ =>
                Answers.endOfText.bind fun _ _ => .pure ?_).rule
  have projected : IfFits (fun exprs => ∀ e ∈ exprs, Expr.Written allowed e)
      (projection.getD (.ok [])) := by
    cases projection with
    | none => exact ifFits_ok.mpr (by simp)
    | some reading => exact inProjection reading rfl
  have ordered : IfFits (fun keys : List SortKey => ∀ key ∈ keys, key.expr.Written allowed)
      (ordering.getD (.ok [])) := by
    cases ordering with
    | none => exact ifFits_ok.mpr (by simp)
    | some reading => exact inOrdering reading rfl
  refine (ifFits_collect inJoins).bind fun joins inJoins =>
    (ifFits_collect inFilters).bind fun filters inFilters =>
      projected.bind fun projection inProjection => ordered.bind fun ordering inOrdering => ?_
  have whole : ∀ limit?, IfFits (Written allowed)
      (.ok { source, joins, filters, projection, ordering, limit? }) := fun limit? =>
    ifFits_ok.mpr (written_of_clauses inSource inJoins inFilters inProjection inOrdering)
  cases limit with
  | none => exact whole none
  | some reading =>
      cases reading with
      | error misfit => exact ifFits_error
      | ok count => exact whole (some count)

/-- What a query contains that is read from a text can stand in the text. -/
theorem written_of_parse
    {text : String}
    {query : Query}
    (parsed : Query.parse text = .ok query) :
    query.Written (· ∈ text.toList) := by
  obtain ⟨rest, matched⟩ := parse_eq_ok_iff.mp parsed
  exact (yields_query (fun _ => id) matched).1 query rfl

end Clauses

end FullTextQuery.Query
