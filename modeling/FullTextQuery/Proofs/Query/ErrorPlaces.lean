import FullTextQuery.Proofs.Query.Positions
import FullTextQuery.Proofs.Query.RelaidQueries
import FullTextQuery.Proofs.Syntax.LoneExpressions

/-!
# Where a text is blamed

An error of a query text has the position of an integer that does not fit, or of the rule
that failed nearest to the end.  Both are positions of the text that is read.  A lone
expression is read behind `Expr.queryBefore`: what is blamed is always in its own part, but
the position is that in the whole, so it is too far to the right in the first line by the
characters in front.
-/

namespace FullTextQuery

namespace Query

open Matcher Grammar

variable {α β : Type} {bound : Nat} {cs rest : List Char}

/-! ## Integers that do not fit -/

/-- Whether an integer that does not fit begins where at most so many characters are left. -/
def MisfitWithin
    (bound : Nat)
    (reading : Reading α) :
    Prop :=
  ∀ misfit, reading = .error misfit → misfit.left ≤ bound

theorem misfitWithin_ok
    (value : α) :
    MisfitWithin bound (.ok value : Reading α) := by
  simp [MisfitWithin]

theorem misfitWithin_error
    {misfit : MisfitInteger}
    (within : misfit.left ≤ bound) :
    MisfitWithin bound (.error misfit : Reading α) := by
  simpa [MisfitWithin] using within

namespace MisfitWithin

/-- A misfit of a part is a misfit of the whole. -/
theorem bind
    {reading : Reading α}
    {next : α → Reading β}
    (first : MisfitWithin bound reading)
    (second : ∀ value, MisfitWithin bound (next value)) :
    MisfitWithin bound (reading >>= next) := by
  cases reading with
  | error misfit => exact misfitWithin_error (first misfit rfl)
  | ok value => exact second value

theorem map
    {reading : Reading α}
    (within : MisfitWithin bound reading)
    (f : α → β) :
    MisfitWithin bound (reading.map f) := by
  cases reading with
  | error misfit => exact misfitWithin_error (within misfit rfl)
  | ok value => exact misfitWithin_ok (f value)

/-- A misfit among readings is one of them. -/
theorem collect
    {readings : List (Reading α)}
    (each : ∀ reading ∈ readings, MisfitWithin bound reading) :
    MisfitWithin bound (collect readings) := by
  induction readings with
  | nil => exact misfitWithin_ok []
  | cons reading readings inductionHypothesis =>
      obtain ⟨first, others⟩ := List.forall_mem_cons.mp each
      exact first.bind fun value => (inductionHypothesis others).bind fun values =>
        misfitWithin_ok (value :: values)

theorem getD
    {part : Option (Reading α)}
    (within : ∀ reading ∈ part, MisfitWithin bound reading)
    (missing : α) :
    MisfitWithin bound (part.getD (.ok missing)) := by
  cases part with
  | none => exact misfitWithin_ok missing
  | some reading => exact within reading rfl

end MisfitWithin

/-- Having at most so many characters. -/
def atMost
    (bound : Nat) :
    EndProperty where
  holds cs := cs.length ≤ bound
  ofSuffix _ _ suffix short := suffix.length_le.trans short

/-- Whether an integer that a matcher refuses begins in the text, if that is not too long. -/
def RefusesWithin
    (bound : Nat)
    (m : Matcher (Reading α)) :
    Prop :=
  Answers (atMost bound) m (MisfitWithin bound)

/-- A property of an item is read from a text of any kind. -/
theorem answers_member
    {texts : EndProperty} :
    Answers texts member (fun _ => True) :=
  (Answers.name.bind fun _ _ => (Answers.sign '.').bind fun _ _ => Answers.name.bind
    fun _ _ => .pure trivial).rule

/-- A parameter is read from a text of any kind. -/
theorem answers_parameter
    {texts : EndProperty} :
    Answers texts parameter (fun _ => True) :=
  ((Answers.sign '@').bind fun _ _ => Answers.name.bind fun _ _ => .pure trivial).rule

namespace RefusesWithin

variable {m : Matcher (Reading Expr)}

/-- An integer that does not fit begins within the text. -/
theorem integerLiteral :
    RefusesWithin bound integerLiteral := by
  refine Answers.left.bind fun start isStart => Answers.digits.bind fun digits _ => ?_
  obtain ⟨text, short, rfl⟩ := isStart
  split
  · exact .pure (misfitWithin_ok _)
  · exact .pure (misfitWithin_error short)

theorem literal :
    RefusesWithin bound literal := by
  have alternatives : RefusesWithin bound
      (firstOf [nullLiteral, realLiteral, Grammar.integerLiteral, textLiteral]) := by
    refine .firstOf fun m member => ?_
    simp only [List.mem_cons, List.not_mem_nil, or_false] at member
    rcases member with rfl | rfl | rfl | rfl
    · exact (Answers.keyword "null").bind fun _ _ => .pure (misfitWithin_ok _)
    · exact Answers.fraction.bind fun _ _ => .pure (misfitWithin_ok _)
    · exact integerLiteral
    · exact (Answers.text fun _ _ => trivial).bind fun _ _ => .pure (misfitWithin_ok _)
  exact (alternatives.bind fun reading within => .pure (within.map Expr.literal)).rule

/-- The arguments of a call refuse within the text. -/
theorem call
    (nested : RefusesWithin bound m) :
    RefusesWithin bound (call m) := by
  refine (Answers.name.spaced.bind fun function _ => (Answers.sign '(').spaced.bind fun _ _ =>
    nested.separated.optional.spaced.bind fun args within =>
      (Answers.sign ')').bind fun _ _ => .pure (MisfitWithin.map (.collect ?_) _)).rule
  cases args with
  | none => simp
  | some readings => exact within readings rfl

/-- A part that is no integer is always read. -/
theorem fits
    {plain : Matcher α}
    {f : α → β}
    (answers : Answers (atMost bound) plain fun _ => True) :
    RefusesWithin bound (plain.andThen fun value => succeed (.ok (f value))) :=
  answers.andThen fun value _ => .pure (misfitWithin_ok (f value))

theorem operand
    (nested : RefusesWithin bound m) :
    RefusesWithin bound (operand m) := by
  refine (Answers.firstOf fun alternative isAlternative => ?_).rule
  simp only [List.mem_cons, List.not_mem_nil, or_false] at isAlternative
  rcases isAlternative with rfl | rfl | rfl | rfl | rfl | rfl
  · exact nested.call
  · exact fits answers_member
  · exact literal
  · exact fits answers_parameter
  · exact (Answers.sign '(').spaced.bind fun _ _ => nested.spaced.bind fun _ within =>
      (Answers.sign ')').bind fun _ _ => .pure within
  · exact Answers.name.andThen fun _ _ => .pure (misfitWithin_ok _)

theorem comparison
    (nested : RefusesWithin bound m) :
    RefusesWithin bound (comparison m) := by
  have second : Answers (atMost bound)
      (do
        Grammar.layout
        let op ← spaced operator
        let other ← Grammar.operand m
        return (op, other))
      (fun found => MisfitWithin bound found.2) :=
    Answers.layout.bind fun _ _ => Answers.operator.spaced.bind fun _ _ =>
      nested.operand.bind fun _ within => .pure within
  refine (nested.operand.bind fun first within =>
    second.optional.bind fun found alsoWithin => ?_).rule
  cases found with
  | none => exact .pure within
  | some found =>
      exact .pure (within.bind fun _ => (alsoWithin found rfl).bind fun _ => misfitWithin_ok _)

theorem negation
    (nested : RefusesWithin bound m)
    (depth : Nat) :
    RefusesWithin bound (negation m depth) := by
  induction depth with
  | zero => exact .fail
  | succ depth inductionHypothesis =>
      refine (Answers.orElse ?_ nested.comparison).rule
      exact (Answers.keyword "not").spaced.bind fun _ _ => inductionHypothesis.bind
        fun _ within => .pure (within.map Expr.not)

/-- A chain refuses within the text if its parts do. -/
theorem keywordChain
    {part : Matcher (Reading Expr)}
    (within : RefusesWithin bound part)
    (word : String)
    (combine : Expr → Expr → Expr) :
    RefusesWithin bound (keywordChain word combine part) := by
  have other : RefusesWithin bound (do Grammar.layout; spaced (keyword word); part) :=
    Answers.layout.bind fun _ _ => (Answers.keyword word).spaced.bind fun _ _ => within
  refine (within.bind fun first isWithin => other.many.bind fun others allWithin => .pure ?_).rule
  rw [groupLeft]
  induction others generalizing first with
  | nil => exact isWithin
  | cons next others inductionHypothesis =>
      obtain ⟨nextWithin, othersWithin⟩ := List.forall_mem_cons.mp allWithin
      have joined : MisfitWithin bound (do
          let l ← first
          let r ← next
          return combine l r) :=
        isWithin.bind fun _ => nextWithin.bind fun _ => misfitWithin_ok _
      exact inductionHypothesis _ joined othersWithin

/-- An expression refuses within the text at every depth. -/
theorem exprWithin
    (depth : Nat) :
    RefusesWithin bound (exprWithin depth) := by
  induction depth with
  | zero => exact .fail
  | succ depth inductionHypothesis =>
      have unaries : RefusesWithin bound (unary (Grammar.exprWithin depth)) :=
        fun cs short => inductionHypothesis.negation _ short
      exact ((unaries.keywordChain "and" .and).keywordChain "or" .or).rule

theorem expr :
    RefusesWithin bound expr :=
  fun _ short => exprWithin _ short

theorem whereClause :
    RefusesWithin bound whereClause :=
  ((Answers.keyword "where").spaced.bind fun _ _ => expr).rule

theorem selectClause :
    RefusesWithin bound selectClause :=
  ((Answers.keyword "select").spaced.bind fun _ _ => expr.separated.bind fun _ within =>
    .pure (.collect within)).rule

theorem orderClause :
    RefusesWithin bound orderClause := by
  have key : RefusesWithin bound sortKey :=
    (expr.bind fun _ within => (Answers.layout.bind fun _ _ => Answers.direction).optional.bind
      fun _ _ => .pure (within.map _)).rule
  exact ((Answers.keyword "order").spaced.bind fun _ _ => (Answers.keyword "by").spaced.bind
    fun _ _ => key.separated.bind fun _ within => .pure (.collect within)).rule

/-- A limit that does not fit begins within the text. -/
theorem takeClause :
    RefusesWithin bound takeClause := by
  refine ((Answers.keyword "take").spaced.bind fun _ _ => Answers.left.bind fun start isStart =>
    Answers.digits.bind fun digits _ => ?_).rule
  obtain ⟨text, short, rfl⟩ := isStart
  split
  · exact .pure (misfitWithin_ok _)
  · exact .pure (misfitWithin_error short)

end RefusesWithin

/-! ## Failures -/

/-- Whether a failure is reported where at most so many characters are left. -/
def FailsWithin
    (bound : Nat)
    (failure? : Option Nat) :
    Prop :=
  ∃ left ∈ failure?, left ≤ bound

section Failing

variable {m other : Matcher α} {next : α → Matcher β} {value : α} {one two : Option Nat}

/-- Of two failures the nearer to the end is within the text if one is. -/
theorem FailsWithin.nearer
    (fails : FailsWithin bound one ∨ FailsWithin bound two) :
    FailsWithin bound (nearer one two) := by
  cases one <;> cases two <;> simp_all [FailsWithin, Query.nearer]

/-- A failure of the first part within the text is one of both. -/
theorem failsWithin_bind
    (fails : FailsWithin bound (m cs).failure?) :
    FailsWithin bound ((m >>= next) cs).failure? := by
  change FailsWithin bound (m.andThen next cs).failure?
  unfold andThen
  cases found : (m cs).matched? with
  | none => simpa only [found] using fails
  | some _ => simpa only [found] using FailsWithin.nearer (.inl fails)

/-- A failure of the second part within the text is one of both. -/
theorem failsWithin_bind_of_some
    (found : (m cs).matched? = some (value, rest))
    (fails : FailsWithin bound (next value rest).failure?) :
    FailsWithin bound ((m >>= next) cs).failure? := by
  change FailsWithin bound (m.andThen next cs).failure?
  unfold andThen
  simpa only [found] using FailsWithin.nearer (.inr fails)

/-- A failure of the first of two choices within the text is one of both. -/
theorem failsWithin_orElse
    (fails : FailsWithin bound (m cs).failure?) :
    FailsWithin bound (orElse m other cs).failure? := by
  unfold orElse
  cases found : (m cs).matched? with
  | none => simpa only [found] using FailsWithin.nearer (.inl fails)
  | some _ => simpa only [found] using fails

theorem failsWithin_many
    (fails : FailsWithin bound (m cs).failure?) :
    FailsWithin bound (m.many cs).failure? :=
  failsWithin_orElse (failsWithin_bind fails)

theorem failsWithin_rule
    (fails : FailsWithin bound (m cs).failure?) :
    FailsWithin bound (m.rule cs).failure? := by
  unfold rule
  cases found : (m cs).matched? with
  | none => simpa only [found] using FailsWithin.nearer (.inl fails)
  | some _ => simpa only [found] using fails

end Failing

/-- Whether a matcher that fails in the last characters of a text reports a failure in them. -/
def BlamesWithin
    (bound : Nat)
    (m : Matcher α) :
    Prop :=
  ∀ ⦃cs : List Char⦄, cs.length ≤ bound → (m cs).matched? = none → FailsWithin bound (m cs).failure?

namespace BlamesWithin

variable {m : Matcher α} {next : α → Matcher β} {holds : α → Prop}

/-- Two parts blame places within the text if the first leaves no more than there was. -/
theorem bind
    (first : BlamesWithin bound m)
    (answers : Answers (atMost bound) m holds)
    (second : ∀ value, BlamesWithin bound (next value)) :
    BlamesWithin bound (m >>= next) := by
  intro cs short none
  rcases found : (m cs).matched? with _ | ⟨value, rest⟩
  · exact failsWithin_bind (first short found)
  · rw [matched?_bind_of_some found] at none
    exact failsWithin_bind_of_some found (second value (answers short found).2 none)

/-- A rule that fails blames its own beginning. -/
theorem rule :
    BlamesWithin bound m.rule := by
  intro cs short none
  rw [matched?_rule] at none
  unfold Matcher.rule
  simpa only [none] using FailsWithin.nearer (.inr ⟨cs.length, rfl, short⟩)

theorem token
    {scan : List Char → Option (α × List Char)} :
    BlamesWithin bound (token scan) := by
  intro cs short none
  rw [matched?_token] at none
  unfold Matcher.token
  simpa only [none] using ⟨cs.length, rfl, short⟩

theorem possibly :
    BlamesWithin bound (possibly m) := by
  intro cs _ none
  rw [Grammar.possibly, matched?_optional] at none
  cases none

theorem layout :
    BlamesWithin bound layout := by
  intro cs _ none
  rw [matched?_layout] at none
  cases none

theorem pure
    (value : α) :
    BlamesWithin bound (Pure.pure value) := by
  intro cs _ none
  cases none

end BlamesWithin

/-! ## Lone expressions -/

/-- What a query goes on with behind its filters. -/
def behindFilters
    (source : Source)
    (joins : List (Reading Join))
    (filters : List (Reading Expr)) :
    Matcher (Reading Query) := do
  let projection ← possibly selectClause
  let ordering ← possibly orderClause
  let limit ← possibly takeClause
  let _ ← possibly (sign ';')
  layout
  endOfText
  return do
    let joins ← collect joins
    let filters ← collect filters
    let projection ← projection.getD (.ok [])
    let ordering ← ordering.getD (.ok [])
    let limit? ← match limit with
      | none => pure none
      | some count => count.map some
    return { source, joins, filters, projection, ordering, limit? }

/-- Behind the source a query has joins, filters and the other clauses. -/
theorem behindSource_eq
    (source : Source) :
    behindSource source = repeated joinClause >>= fun joins =>
      repeated whereClause >>= behindFilters source joins :=
  rfl

section BehindFilters

variable {source : Source} {joins : List (Reading Join)} {filters : List (Reading Expr)}

/-- The clauses behind the filters refuse within the text, if joins and filters do. -/
theorem refusesWithin_behindFilters
    (joinsWithin : ∀ reading ∈ joins, MisfitWithin bound reading)
    (filtersWithin : ∀ reading ∈ filters, MisfitWithin bound reading) :
    RefusesWithin bound (behindFilters source joins filters) := by
  refine RefusesWithin.selectClause.possibly.bind fun projection projected =>
    RefusesWithin.orderClause.possibly.bind fun ordering ordered =>
      RefusesWithin.takeClause.possibly.bind fun limit limited =>
        (Answers.sign ';').possibly.bind fun _ _ => Answers.layout.bind fun _ _ =>
          Answers.endOfText.bind fun _ _ => .pure ?_
  refine (MisfitWithin.collect joinsWithin).bind fun _ =>
    (MisfitWithin.collect filtersWithin).bind fun _ =>
      (MisfitWithin.getD projected []).bind fun _ => (MisfitWithin.getD ordered []).bind fun _ => ?_
  cases limit with
  | none => exact misfitWithin_ok _
  | some count => exact ((limited count rfl).map some).bind fun _ => misfitWithin_ok _

/-- The clauses behind the filters blame places within the text. -/
theorem blamesWithin_behindFilters :
    BlamesWithin bound (behindFilters source joins filters) :=
  .bind .possibly RefusesWithin.selectClause.possibly fun _ =>
    .bind .possibly RefusesWithin.orderClause.possibly fun _ =>
      .bind .possibly RefusesWithin.takeClause.possibly fun _ =>
        .bind .possibly (Answers.sign ';').possibly fun _ =>
          .bind .layout Answers.layout fun _ => .bind .token Answers.endOfText fun _ => .pure _

end BehindFilters

section Wrapped

/-- A lone expression is read by the part of a query that begins with its filters. -/
theorem matched?_wrapped
    (cs : List Char) :
    (Grammar.query (Expr.queryBefore.toList ++ cs)).matched? =
      ((repeated whereClause >>= behindFilters ⟨"__", "__"⟩ [])
        (" where ".toList ++ cs)).matched? := by
  have noJoin : (repeated joinClause (" where ".toList ++ cs)).matched? =
      some ([], " where ".toList ++ cs) :=
    matched?_many_of_none rfl
  rw [query_eq, matched?_rule, matched?_bind_of_some matched?_layout, Syntax.skipLayout_queryBefore,
    matched?_bind_of_some (Syntax.matched?_queryBefore cs), behindSource_eq,
    matched?_bind_of_some noJoin]

/-- A failure behind the source of the query before an expression is one of the whole query. -/
theorem failsWithin_wrapped
    (fails : FailsWithin bound ((repeated whereClause >>= behindFilters ⟨"__", "__"⟩ [])
      (" where ".toList ++ cs)).failure?) :
    FailsWithin bound (Grammar.query (Expr.queryBefore.toList ++ cs)).failure? := by
  have noJoin : (repeated joinClause (" where ".toList ++ cs)).matched? =
      some ([], " where ".toList ++ cs) :=
    matched?_many_of_none rfl
  rw [query_eq]
  refine failsWithin_rule (failsWithin_bind_of_some matched?_layout ?_)
  rw [Syntax.skipLayout_queryBefore]
  refine failsWithin_bind_of_some (Syntax.matched?_queryBefore cs) ?_
  rw [behindSource_eq]
  exact failsWithin_bind_of_some noJoin fails

/-- Where no expression begins, its rule is blamed, and nothing is matched. -/
theorem fails_of_no_expr
    (noExpr : (expr (skipLayout .between cs)).matched? = none) :
    (Grammar.query (Expr.queryBefore.toList ++ cs)).matched? = none ∧
      FailsWithin cs.length (Grammar.query (Expr.queryBefore.toList ++ cs)).failure? := by
  constructor
  · have noFilter : (repeated whereClause (" where ".toList ++ cs)).matched? =
        some ([], " where ".toList ++ cs) :=
      matched?_many_of_none ((Syntax.matched?_filter cs).trans noExpr)
    rw [matched?_wrapped, matched?_bind_of_some noFilter]
    rfl
  · have isWord : (spaced (keyword "where") ("where ".toList ++ cs)).matched? =
        some ((), skipLayout .between cs) := rfl
    have short := (skipLayout_suffix cs).length_le
    refine failsWithin_wrapped (failsWithin_bind (failsWithin_many ?_))
    refine failsWithin_bind_of_some matched?_layout ?_
    rw [Syntax.skipLayout_where]
    exact failsWithin_rule (failsWithin_bind_of_some isWord (BlamesWithin.rule short noExpr))

/-- Behind an expression only its own part of the text is blamed. -/
theorem outcome_of_expr
    {reading : Reading Expr}
    (isExpr : (expr (skipLayout .between cs)).matched? = some (reading, rest)) :
    (∀ whole last, (Grammar.query (Expr.queryBefore.toList ++ cs)).matched? = some (whole, last) →
      MisfitWithin cs.length whole) ∧
    ((Grammar.query (Expr.queryBefore.toList ++ cs)).matched? = none →
      FailsWithin cs.length (Grammar.query (Expr.queryBefore.toList ++ cs)).failure?) := by
  obtain ⟨firstWithin, short⟩ := RefusesWithin.expr (skipLayout_suffix cs).length_le isExpr
  obtain ⟨⟨others, behind⟩, more⟩ := exists_matched?_upTo
    (do layout; whereClause : Matcher (Reading Expr)) (" where ".toList ++ cs).length rest
  have others_within := (Answers.layout.bind fun _ _ => RefusesWithin.whereClause).upTo _ short more
  have filters : (repeated whereClause (" where ".toList ++ cs)).matched? =
      some (reading :: others, behind) :=
    matched?_many_of_some ((Syntax.matched?_filter cs).trans isExpr) more
  rw [matched?_wrapped, matched?_bind_of_some filters]
  constructor
  · intro whole last matched
    exact (refusesWithin_behindFilters (by simp) (List.forall_mem_cons.mpr
      ⟨firstWithin, others_within.1⟩) others_within.2 matched).1
  · intro none
    exact failsWithin_wrapped (failsWithin_bind_of_some filters
      (blamesWithin_behindFilters others_within.2 none))

/-- A query that is put before a text refuses and fails only within this text. -/
theorem outcome_wrapped
    (cs : List Char) :
    (∀ whole last, (Grammar.query (Expr.queryBefore.toList ++ cs)).matched? = some (whole, last) →
      MisfitWithin cs.length whole) ∧
    ((Grammar.query (Expr.queryBefore.toList ++ cs)).matched? = none →
      FailsWithin cs.length (Grammar.query (Expr.queryBefore.toList ++ cs)).failure?) := by
  rcases isExpr : (expr (skipLayout .between cs)).matched? with _ | ⟨reading, rest⟩
  · obtain ⟨noQuery, fails⟩ := fails_of_no_expr isExpr
    simp [noQuery, fails]
  · exact outcome_of_expr isExpr

/-- Of a lone expression behind `Expr.queryBefore` only its own part of the text is blamed. -/
theorem exists_left_of_wrapped
    {e : ParseError}
    (refused : Query.ofChars (Expr.queryBefore.toList ++ cs) = .error e) :
    ∃ left ≤ cs.length,
      e.position? = some (Position.ofLeft (Expr.queryBefore.toList ++ cs) left) := by
  obtain ⟨misfits, failures⟩ := outcome_wrapped cs
  unfold ofChars at refused
  rcases matched : (Grammar.query (Expr.queryBefore.toList ++ cs)).matched? with
    _ | ⟨misfit | query, last⟩ <;> simp only [matched] at refused <;> cases refused
  · obtain ⟨left, isLeft, within⟩ := failures matched
    exact ⟨left, within, by rw [isLeft]; rfl⟩
  · exact ⟨misfit.left, misfits _ _ matched misfit rfl, rfl⟩

end Wrapped

end Query

/-- Where the errors of a text, read as a query and as a lone expression, say that it is wrong. -/
structure BlamesOwnPlaces
    (text : String) :
    Prop where
  /-- A query is wrong at a position of its text. -/
  query : ∀ e, Query.parse text = .error e →
    ∃ position : Position, e.position? = some position ∧ position.IsIn text.toList
  /-- A lone expression is wrong at one as well; in the first line it is reported too far right. -/
  expr : ∀ e, Expr.parse text = .error e →
    ∃ position : Position, position.IsIn text.toList ∧
      e.position? = some (position.shift 1 Expr.queryBefore.length)
  /-- Below the first line the position reported for a lone expression is one of its text. -/
  below : ∀ e (position : Position), Expr.parse text = .error e → e.position? = some position →
    position.line ≠ 1 → position.IsIn text.toList

/-- Every error has a position, and the text that is read is wrong there. -/
theorem Query.exists_position_of_parse
    {text : String}
    {e : ParseError}
    (refused : Query.parse text = .error e) :
    ∃ position : Position, e.position? = some position ∧ position.IsIn text.toList := by
  unfold Query.parse Query.ofChars at refused
  rcases matched : (Query.Grammar.query text.toList).matched? with _ | ⟨misfit | query, last⟩ <;>
    simp only [matched] at refused <;> cases refused
  · exact ⟨_, rfl, Position.isIn_ofLeft _ _⟩
  · exact ⟨_, rfl, Position.isIn_ofLeft _ _⟩

/-- An expression that is refused is refused at a place of its text, behind the query before it. -/
theorem Expr.exists_position_of_parse
    {text : String}
    {e : ParseError}
    (refused : Expr.parse text = .error e) :
    ∃ position : Position, position.IsIn text.toList ∧
      e.position? = some (position.shift 1 Expr.queryBefore.length) := by
  rcases parsed : Query.parse (Expr.queryBefore ++ text) with fault | query
  · have same : fault = e := by
      rw [Expr.parse, parsed] at refused
      cases refused
      rfl
    rw [Query.parse, String.toList_append] at parsed
    obtain ⟨left, within, isPosition⟩ := Query.exists_left_of_wrapped parsed
    refine ⟨Position.ofLeft text.toList left, Position.isIn_ofLeft _ _, ?_⟩
    rw [← same, isPosition, Position.ofLeft_append (by simp [queryBefore]) within,
      String.length_toList]
  · rcases isExpr : (Query.Grammar.expr (Query.skipLayout .between text.toList)).matched? with
      _ | ⟨reading, rest⟩
    · obtain ⟨last, matched⟩ := Query.parse_eq_ok_iff.mp parsed
      rw [String.toList_append, (Query.fails_of_no_expr isExpr).1] at matched
      cases matched
    · obtain ⟨first, more, -, filters⟩ := Syntax.filters_of_parse isExpr parsed
      rw [Expr.parse, parsed] at refused
      simp [filters, bind, Except.bind] at refused

/-- Whatever the text is, its errors are blamed on places of its own. -/
theorem blamesOwnPlaces
    (text : String) :
    BlamesOwnPlaces text where
  query _ := Query.exists_position_of_parse
  expr _ := Expr.exists_position_of_parse
  below e position refused isPosition notFirst := by
    obtain ⟨own, inText, shifted⟩ := Expr.exists_position_of_parse refused
    obtain rfl := Option.some.inj (isPosition.symm.trans shifted)
    rw [Position.line_shift] at notFirst
    rwa [Position.shift_of_ne notFirst]

/-- The empty text is wrong at a column that it does not have. -/
theorem position_of_parse_empty :
    Expr.parse "" = .error (.syntaxError ⟨1, 21⟩) ∧ ¬ Position.IsIn ⟨1, 21⟩ "".toList := by
  decide +kernel

end FullTextQuery
