import FullTextQuery.Proofs.Query.InUnits
import FullTextQuery.Proofs.Query.RelaidExpressions

namespace FullTextQuery.Query

/-!
# Queries laid out anew

A text that is laid out anew is the same query.  Names of items and entities are written
alike in both texts because none of them stands in front of a parenthesis: what follows
them begins with a keyword, or is the end of the query.
-/

open Matcher Grammar

variable {α β : Type} {cs cs' : List Char} {bound bound' : Nat}

section Names

/-- Whether nothing is matched where a parenthesis is opened behind layout. -/
def RefusesOpen
    (m : Matcher α) :
    Prop :=
  ∀ cs others, skipLayout .between cs = '(' :: others → (m cs).matched? = none

/-- A call is a name in front of a parenthesis. -/
theorem exists_open_of_isCall
    {name : String}
    {rest : List Char}
    (isCall : IsCall cs)
    (isName : scanName? cs = some (name, rest)) :
    ∃ others, skipLayout .between rest = '(' :: others := by
  by_contra noOpen
  have stops : Text.Stops (· == '(') (skipLayout .between rest) := by
    rw [Text.stops_beq_iff]
    exact fun others shape => noOpen ⟨others, shape⟩
  rw [IsCall, matched?_call_of_noOpen isName stops] at isCall
  cases isCall

/-- A parenthesis is opened in both texts. -/
theorem Aligned.exists_open
    {others : List Char}
    (aligned : Aligned ('(' :: others) cs') :
    ∃ others', cs' = '(' :: others' := by
  generalize shape : '(' :: others = cs at aligned
  cases aligned with
  | ends => cases shape
  | point => cases shape
  | recased isWord =>
      obtain ⟨c, more, rfl, start, -⟩ := isWord
      cases shape
      cases start
  | unit isUnit =>
      obtain ⟨c, more, rfl, -⟩ := isUnit.exists_head
      cases shape
      exact ⟨_, rfl⟩

/-- A name in front of what opens no parenthesis is written alike in both texts. -/
theorem keeps_nameThen
    {related : β → β → Prop}
    {next : String → Matcher β}
    (nexts : ∀ name, Keeps AlignedBehind bound bound' 0 related (next name) (next name))
    (refuses : ∀ name, RefusesOpen (next name)) :
    Keeps Aligned bound bound' 1 related (Grammar.name >>= next) (Grammar.name >>= next) := by
  intro cs cs' aligned short short'
  rw [matched?_bind, matched?_bind, Grammar.name, matched?_token, matched?_token]
  have same := keeps_scanName aligned
  generalize isName : scanName? cs = answer at same
  generalize scanName? cs' = answer' at same
  cases same with
  | fails => exact .fails
  | @found name name' rest rest' sameName alignedRest shorter shorter' =>
      rw [Option.bind_some, Option.bind_some]
      rcases sameName.2 with rfl | isCall
      · have more := nexts name' alignedRest (by omega) (by omega)
        dsimp only
        generalize (next name' rest).matched? = answer at more
        generalize (next name' rest').matched? = answer' at more
        cases more with
        | fails => exact .fails
        | found isRelated alignedLast taken taken' =>
            exact .found isRelated alignedLast (by omega) (by omega)
      · obtain ⟨others, opens⟩ := exists_open_of_isCall isCall isName
        rw [AlignedBehind, opens] at alignedRest
        obtain ⟨others', opens'⟩ := alignedRest.exists_open
        rw [refuses name rest others opens, refuses name' rest' others' opens']
        exact .fails

/-- A name and what follows are read the same, if what follows does not begin with a parenthesis. -/
theorem keeps_spacedNameThen
    {related : β → β → Prop}
    {next : String → Matcher β}
    (nexts : ∀ name, Keeps Aligned bound bound' 0 related (next name) (next name))
    (refuses : ∀ name others, (next name ('(' :: others)).matched? = none) :
    Keeps Aligned bound bound' 1 related (spaced Grammar.name >>= next)
      (spaced Grammar.name >>= next) := by
  refine .spaced (keeps_nameThen (fun name => (nexts name).layout) fun name cs others opens => ?_)
  rw [matched?_bind_of_some matched?_layout, opens, refuses]

/-- No keyword is a parenthesis. -/
theorem matched?_keyword_open
    {word : String}
    (reserved : word.toList ∈ reservedWords)
    (next : Unit → Matcher β)
    (others : List Char) :
    ((spaced (keyword word) >>= next) ('(' :: others)).matched? = none := by
  rw [matched?_spaced_bind, keyword, matched?_token,
    scanWord?_of_noName reserved (Text.stops_cons.mpr rfl), Option.bind_none]

/-- No clause begins with a parenthesis. -/
theorem matched?_clause_open
    {word : String}
    (reserved : word.toList ∈ reservedWords)
    (next : Unit → Matcher β)
    (others : List Char) :
    (rule (spaced (keyword word) >>= next) ('(' :: others)).matched? = none := by
  rw [matched?_rule, matched?_keyword_open reserved]

end Names

section Clauses

theorem keeps_operandOfQuery :
    Keeps Aligned bound bound' 1 SameReading (operand expr) (operand expr) :=
  (keeps_operand keepsNested_expr).mono (Nat.le_succ _) (Nat.le_succ _)

/-- A join is read the same in a text relaid. -/
theorem keeps_joinClause :
    Keeps Aligned bound bound' 1 SameReading joinClause joinClause := by
  refine .rule ((keeps_keyword (by decide)).spacedThen le_rfl fun _ _ _ => ?_)
  refine (keeps_spacedNameThen (fun item => ?_) fun item =>
    matched?_keyword_open (by decide) _).atLeast (by omega)
  refine (keeps_keyword (by decide)).spacedThen (by omega) fun _ _ _ => ?_
  refine (keeps_spacedNameThen (fun entity => ?_) fun entity =>
    matched?_keyword_open (by decide) _).atLeast (by omega)
  refine (keeps_keyword (by decide)).spacedThen (by omega) fun _ _ _ => ?_
  refine keeps_operandOfQuery.spacedThen (by omega) fun left left' sameLeft => ?_
  refine keeps_equals.spacedThen (by omega) fun _ _ _ => ?_
  exact keeps_operandOfQuery.finish (by omega) (fun _ _ => rfl) (fun _ _ => rfl)
    fun _ _ sameRight => sameLeft.bind fun l => sameRight.bind fun r => rfl

theorem keeps_whereClause :
    Keeps Aligned bound bound' 1 SameReading whereClause whereClause :=
  .rule ((keeps_keyword (by decide)).spacedThen le_rfl fun _ _ _ =>
    keeps_expr.atLeast (by omega))

/-- Result expressions are read the same in a text relaid. -/
theorem keeps_selectClause :
    Keeps Aligned bound bound' 1 SameReading selectClause selectClause := by
  refine .rule ((keeps_keyword (by decide)).spacedThen le_rfl fun _ _ _ => ?_)
  exact keeps_expr.separated.finish (by omega) (fun _ _ => rfl) (fun _ _ => rfl)
    fun _ _ same => sameReading_collect same

/-- A sort key is read the same in a text relaid. -/
theorem keeps_sortKey :
    Keeps Aligned bound bound' 1 SameReading sortKey sortKey := by
  refine .rule (keeps_expr.andThen le_rfl fun key key' sameKey => ?_)
  refine keeps_direction.optionalBehind.finish le_rfl (fun _ _ => rfl) (fun _ _ => rfl) ?_
  intro descending descending' sameDirection
  have same : descending = descending' := by
    cases sameDirection with
    | none => rfl
    | some same => rw [same]
  rw [same]
  exact sameKey.map _

theorem keeps_orderClause :
    Keeps Aligned bound bound' 1 SameReading orderClause orderClause := by
  refine .rule ((keeps_keyword (by decide)).spacedThen le_rfl fun _ _ _ => ?_)
  refine (keeps_keyword (by decide)).spacedThen (by omega) fun _ _ _ => ?_
  exact keeps_sortKey.separated.finish (by omega) (fun _ _ => rfl) (fun _ _ => rfl)
    fun _ _ same => sameReading_collect same

/-- The count that some digits spell, or that they do not fit so many characters from the end. -/
def countReading
    (left : Nat)
    (digits : List Char) :
    Reading UInt64 :=
  match Decimal.below? UInt64.size digits with
  | some n => .ok (UInt64.ofNat n)
  | none => .error ⟨String.ofList digits, left⟩

theorem keeps_takeClause :
    Keeps Aligned bound bound' 1 SameReading takeClause takeClause := by
  refine .rule ((keeps_keyword (by decide)).spacedThen le_rfl fun _ _ _ => ?_)
  intro cs cs' aligned short short'
  rw [matched?_bind_of_some matched?_left, matched?_bind_of_some matched?_left]
  have digits : Keeps Aligned bound bound' 1 (· = ·) (token scanInteger?) (token scanInteger?) :=
    .token fun _ _ => keeps_scanInteger
  refine digits.finish (f := countReading cs.length) (g := countReading cs'.length) (by omega)
    ?_ ?_ ?_ aligned short short'
  · intro digits rest
    unfold countReading
    cases Decimal.below? UInt64.size digits <;> rfl
  · intro digits rest
    unfold countReading
    cases Decimal.below? UInt64.size digits <;> rfl
  · rintro digits _ rfl
    unfold countReading
    cases Decimal.below? UInt64.size digits <;> rfl

end Clauses

section Queries

/-- What a query goes on with behind its first source. -/
def behindSource
    (source : Source) :
    Matcher (Reading Query) := do
  let joins ← repeated joinClause
  let filters ← repeated whereClause
  let projection ← possibly selectClause
  let ordering ← possibly orderClause
  let limit ← possibly takeClause
  let _ ← possibly (sign ';')
  layout
  endOfText
  return do
    let joins ← collect joins
    let filters ← collect filters
    let projection ← projection.getD (.ok [])
    let ordering ← ordering.getD (.ok [])
    let limit? ← match limit with
      | none => pure none
      | some count => count.map some
    return { source, joins, filters, projection, ordering, limit? }

/-- A query is a source and what is behind it. -/
theorem query_eq :
    Grammar.query = rule (layout >>= fun _ => fromClause >>= behindSource) :=
  rfl

/-- Readings of an optional part that is missing or read alike. -/
theorem SameReading.getD
    {part part' : Option (Reading α)}
    (same : Option.Rel SameReading part part')
    (missing : Reading α) :
    SameReading (part.getD missing) (part'.getD missing) := by
  cases same with
  | none => rfl
  | some same => exact same

/-- What is behind the source is read the same in a text relaid. -/
theorem keeps_behindSource
    (source : Source) :
    Keeps AlignedBehind bound bound' 0 SameReading (behindSource source) (behindSource source) := by
  refine keeps_joinClause.many.andThen le_rfl fun joins joins' sameJoins => ?_
  refine keeps_whereClause.many.andThen le_rfl fun filters filters' sameFilters => ?_
  refine keeps_selectClause.optionalBehind.andThen le_rfl
    fun projection projection' sameProjection => ?_
  refine keeps_orderClause.optionalBehind.andThen le_rfl fun ordering ordering' sameOrdering => ?_
  refine keeps_takeClause.optionalBehind.andThen le_rfl fun limit limit' sameLimit => ?_
  refine (keeps_sign (by simp)).optionalBehind.andThen le_rfl fun _ _ _ => ?_
  refine (keeps_endOfText.finish le_rfl (fun _ _ => rfl) (fun _ _ => rfl) fun _ _ _ => ?_).layout
  refine (sameReading_collect sameJoins).bind fun joins => ?_
  refine (sameReading_collect sameFilters).bind fun filters => ?_
  refine (SameReading.getD sameProjection _).bind fun projection => ?_
  refine (SameReading.getD sameOrdering _).bind fun ordering => ?_
  cases sameLimit with
  | none => rfl
  | some same => exact (same.map some).bind fun limit => rfl

section Opens

variable {part : Matcher α} {others : List Char}

/-- A repeated part that begins with no parenthesis is not found before one. -/
theorem matched?_repeated_of_open
    (opens : skipLayout .between cs = '(' :: others)
    (fails : (part ('(' :: others)).matched? = none) :
    (repeated part cs).matched? = some ([], cs) := by
  refine matched?_many_of_none ?_
  rw [matched?_bind_of_some matched?_layout, opens, fails]

theorem matched?_possibly_of_open
    (opens : skipLayout .between cs = '(' :: others)
    (fails : (part ('(' :: others)).matched? = none) :
    (possibly part cs).matched? = some (none, cs) := by
  refine matched?_optional_of_none ?_
  rw [matched?_bind_of_some matched?_layout, opens, fails]

end Opens

/-- No part of a query opens a parenthesis behind its first source. -/
theorem refusesOpen_behindSource
    (source : Source) :
    RefusesOpen (behindSource source) := by
  intro cs others opens
  have noJoin : (joinClause ('(' :: others)).matched? = none :=
    matched?_clause_open (by decide) _ _
  have noFilter : (whereClause ('(' :: others)).matched? = none :=
    matched?_clause_open (by decide) _ _
  have noProjection : (selectClause ('(' :: others)).matched? = none :=
    matched?_clause_open (by decide) _ _
  have noOrdering : (orderClause ('(' :: others)).matched? = none :=
    matched?_clause_open (by decide) _ _
  have noLimit : (takeClause ('(' :: others)).matched? = none :=
    matched?_clause_open (by decide) _ _
  have noSemicolon : (sign ';' ('(' :: others)).matched? = none := rfl
  unfold behindSource
  rw [matched?_bind_of_some (matched?_repeated_of_open opens noJoin),
    matched?_bind_of_some (matched?_repeated_of_open opens noFilter),
    matched?_bind_of_some (matched?_possibly_of_open opens noProjection),
    matched?_bind_of_some (matched?_possibly_of_open opens noOrdering),
    matched?_bind_of_some (matched?_possibly_of_open opens noLimit),
    matched?_bind_of_some (matched?_possibly_of_open opens noSemicolon),
    matched?_bind_of_some matched?_layout, opens]
  rfl

/-- The first source, and what goes on directly behind its entity. -/
def sourceThen
    (next : Source → Matcher β) :
    Matcher β := do
  spaced (keyword "from")
  let item ← spaced Grammar.name
  spaced (keyword "in")
  let entity ← Grammar.name
  next ⟨item, entity⟩

theorem matched?_fromClause_bind
    (next : Source → Matcher β) :
    ((fromClause >>= next) cs).matched? = (sourceThen next cs).matched? := by
  rw [matched?_bind, fromClause, matched?_rule]
  simp only [sourceThen, matched?_bind, Option.bind_assoc, matched?_pure, Option.bind_some]

theorem keeps_sourceThen :
    Keeps Aligned bound bound' 1 SameReading (sourceThen behindSource)
      (sourceThen behindSource) := by
  refine (keeps_keyword (by decide)).spacedThen le_rfl fun _ _ _ => ?_
  refine (keeps_spacedNameThen (fun item => ?_) fun item =>
    matched?_keyword_open (by decide) _).atLeast (by omega)
  refine (keeps_keyword (by decide)).spacedThen (by omega) fun _ _ _ => ?_
  exact (keeps_nameThen (fun entity => keeps_behindSource ⟨item, entity⟩) fun entity =>
    refusesOpen_behindSource ⟨item, entity⟩).atLeast (by omega)

/-- A query is read the same in a text relaid. -/
theorem keeps_query :
    Keeps AlignedBehind bound bound' 1 SameReading Grammar.query Grammar.query := by
  rw [query_eq]
  refine .rule (Keeps.layout fun cs cs' aligned short short' => ?_)
  rw [matched?_fromClause_bind, matched?_fromClause_bind]
  exact keeps_sourceThen aligned short short'

end Queries

/--
The text of a query is nothing but units and layout.  With layout inserted in front of it
and behind its units, and with its keywords and the names of its functions in another
case, it is the text of the same query.
-/
theorem parse_relaid
    {text : String}
    {query : Query}
    (parsed : Query.parse text = .ok query) :
    InUnits text.toList ∧
      ∀ text' : String, Relaid text.toList text'.toList → Query.parse text' = .ok query := by
  refine ⟨inUnits_of_parse parsed, fun text' relaid => ?_⟩
  obtain ⟨rest, matched⟩ := parse_eq_ok_iff.mp parsed
  have same := keeps_query relaid.alignedBehind (Nat.lt_succ_self _) (Nat.lt_succ_self _)
  rw [matched] at same
  generalize matched' : (Grammar.query text'.toList).matched? = answer at same
  cases same with
  | @found _ reading _ rest' sameReading =>
      cases reading with
      | error => cases sameReading
      | ok =>
          cases sameReading
          exact parse_eq_ok_iff.mpr ⟨rest', matched'⟩

/-- A keyword and the name of a function in another case, a comment and blanks inserted. -/
theorem exists_parse_relaid :
    ∃ query, Query.parse "from c in C where f(c)" = .ok query ∧
      Relaid "from c in C where f(c)".toList " from c in C/* all */ WHERE F (c)".toList ∧
        Query.parse " from c in C/* all */ WHERE F (c)" = .ok query := by
  have parsed : Query.parse "from c in C where f(c)" =
      .ok { source := ⟨"c", "C"⟩, filters := [.call "f" [.item "c"]] } := by
    decide +kernel
  have blank : IsLayout [' '] := .space rfl .nil
  have comment : IsLayout ['/', '*', ' ', 'a', 'l', 'l', ' ', '*', '/'] :=
    @IsLayout.block [' ', 'a', 'l', 'l', ' ', '*', '/'] [] rfl .nil
  have isWord : ∀ {word : List Char}, isIdentifier (String.ofList word) = true → IsWord word := by
    intro word identifier
    have shape := isIdentifier_iff.mp identifier
    rwa [String.toList_ofList] at shape
  have word : ∀ {new gap word rest rest' : List Char}, IsLayout new → IsLayout gap →
      isIdentifier (String.ofList word) = true → Text.Stops isNameChar rest →
        Relaid rest rest' → Relaid (gap ++ (word ++ rest)) (new ++ (gap ++ (word ++ rest'))) :=
    fun complete completeGap identifier stops =>
      .unit complete completeGap (.word (isWord identifier) stops)
  have isCall : IsCall "f(c)".toList := by
    unfold IsCall
    decide +kernel
  have relaid : Relaid "from c in C where f(c)".toList
      " from c in C/* all */ WHERE F (c)".toList := by
    simp only [String.reduceToList]
    -- unit by unit from the front, each with what is inserted before its layout
    refine @word [' '] [] ['f', 'r', 'o', 'm'] _ _ blank .nil rfl (Text.stops_cons.mpr rfl) ?_
    refine @word [] [' '] ['c'] _ _ .nil blank rfl (Text.stops_cons.mpr rfl) ?_
    refine @word [] [' '] ['i', 'n'] _ _ .nil blank rfl (Text.stops_cons.mpr rfl) ?_
    refine @word [] [' '] ['C'] _ _ .nil blank rfl (Text.stops_cons.mpr rfl) ?_
    refine @Relaid.recased _ [' '] ['w', 'h', 'e', 'r', 'e'] ['W', 'H', 'E', 'R', 'E'] _ _
      comment blank (isWord rfl) (Text.stops_cons.mpr rfl) (.inl (by decide)) rfl ?_
    refine @Relaid.recased [] [' '] ['f'] ['F'] _ _ .nil blank (isWord rfl)
      (Text.stops_cons.mpr rfl) (.inr isCall) rfl ?_
    refine @Relaid.unit [' '] [] ['('] _ _ .sign blank .nil (.sign (by simp)) ?_
    refine @word [] [] ['c'] _ _ .nil .nil rfl (Text.stops_cons.mpr rfl) ?_
    exact @Relaid.unit [] [] [')'] [] [] .sign .nil .nil (.sign (by simp)) (.ends .nil rfl)
  exact ⟨_, parsed, relaid, (parse_relaid parsed).2 _ relaid⟩

end FullTextQuery.Query
