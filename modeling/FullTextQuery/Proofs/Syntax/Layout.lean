import FullTextQuery.Proofs.Query.Scanners
import FullTextQuery.Proofs.Syntax.Trees

namespace FullTextQuery.Syntax

/-!
# Layout in the grammar

What the layout of the grammar matches is what is skipped between the parts of a
query: white space and comments are runs of characters of one kind and texts up
to a terminator, and both are taken piece by piece.
-/

open PegGrammar

section Pieces

variable {ρ : Type} {g : PegGrammar ρ} {p terminator : Peg ρ} {cs rest : List Char}
  {kind : Char → Bool}

/-- Given characters are taken from the front. -/
theorem parses_chars
    (expected : String)
    (rest : List Char) :
    g.Parses (chars expected) (expected.toList ++ rest) (some ([], rest)) := by
  refine .found ?_
  simp [Terminal.after?]

theorem not_parses_chars
    {expected : String}
    (other : ¬ expected.toList <+: cs) :
    g.Parses (chars expected) cs none := by
  refine .notFound ?_
  rw [Terminal.after?, if_neg]
  intro front
  exact other ⟨_, front ▸ List.take_append_drop expected.length cs⟩

/-- A word is taken in any case. -/
theorem parses_word
    (lowered : String)
    (cs : List Char) :
    g.Parses (word lowered) cs
      ((Query.afterWord? lowered.toList cs).map fun rest => ([], rest)) := by
  have same : (Terminal.word lowered.toList).after? cs = Query.afterWord? lowered.toList cs := by
    refine Option.ext fun rest => ?_
    rw [Query.afterWord?_eq_some_iff, Terminal.after?, Option.ite_none_right_eq_some,
      Option.some.injEq]
    constructor
    · rintro ⟨front, rfl⟩
      exact ⟨_, (List.take_append_drop _ _).symm, front⟩
    · rintro ⟨text, rfl, front⟩
      have size : lowered.toList.length = text.length := by simp [← front]
      simp [size, front]
  rw [← same]
  exact .terminal

/-- What takes one character of a kind and nothing else. -/
structure TakesOne
    (g : PegGrammar ρ)
    (p : Peg ρ)
    (kind : Char → Bool) :
    Prop where
  takes {c : Char} (rest : List Char) : kind c = true → g.Parses p (c :: rest) (some ([], rest))
  fails {cs : List Char} : Text.Stops kind cs → g.Parses p cs none

theorem takesOne_one :
    TakesOne g (one kind) kind where
  takes rest holds := .found (by simp [Terminal.after?, holds])
  fails {cs} stops := by
    refine .notFound ?_
    cases cs with
    | nil => rfl
    | cons c rest => simp [Terminal.after?, Text.stops_cons.mp stops]

theorem takesOne_char
    (c : Char) :
    TakesOne g (chars (String.ofList [c])) (· == c) where
  takes {d} rest holds := by
    obtain rfl := beq_iff_eq.mp holds
    simpa using parses_chars (g := g) (String.ofList [d]) rest
  fails {cs} stops := by
    refine not_parses_chars ?_
    rintro ⟨others, rfl⟩
    simp at stops

/-- A choice takes what one of its alternatives takes. -/
theorem TakesOne.choice
    {first second : Peg ρ}
    {other : Char → Bool}
    (one : TakesOne g first kind)
    (two : TakesOne g second other) :
    TakesOne g (.choice first second) fun c => kind c || other c where
  takes {c} rest holds := by
    cases isFirst : kind c with
    | true => exact .choiceFirst (one.takes rest isFirst)
    | false =>
        refine .choiceSecond (one.fails (by simpa using isFirst)) (two.takes rest ?_)
        simpa [isFirst] using holds
  fails {cs} stops := by
    refine .choiceSecond (one.fails ?_) (two.fails ?_)
    · intro c front
      have := stops c front
      simp_all
    · intro c front
      have := stops c front
      simp_all

/-- A run of one kind is taken as a whole. -/
theorem TakesOne.many
    (part : TakesOne g p kind)
    (cs : List Char) :
    g.Parses (.many p) cs (some ([], cs.dropWhile kind)) := by
  induction cs with
  | nil => exact .manyStops (part.fails Text.stops_nil)
  | cons c rest inductionHypothesis =>
      cases holds : kind c with
      | true =>
          rw [List.dropWhile_cons_of_pos holds]
          exact .more (part.takes rest holds) inductionHypothesis
      | false =>
          rw [List.dropWhile_cons_of_neg (by simp [holds])]
          exact .manyStops (part.fails (by simpa using holds))

/-- A run of one kind is taken as a whole where it is not empty. -/
theorem TakesOne.atLeastOnce
    (part : TakesOne g p kind)
    {run : List Char}
    (someChar : run ≠ [])
    (all : ∀ c ∈ run, kind c = true)
    (stops : Text.Stops kind rest) :
    g.Parses (.atLeastOnce p) (run ++ rest) (some ([], rest)) := by
  obtain ⟨c, others, rfl⟩ := List.exists_cons_of_ne_nil someChar
  have tail := part.many (others ++ rest)
  rw [Text.dropWhile_run (fun d member => all d (by simp [member])) stops] at tail
  exact .andThen (part.takes _ (all c (by simp))) tail

theorem TakesOne.not_atLeastOnce
    (part : TakesOne g p kind)
    (stops : Text.Stops kind cs) :
    g.Parses (.atLeastOnce p) cs none :=
  .seqFails (part.fails stops)

theorem TakesOne.silent
    {r : ρ}
    (silent : g.kind r = .silent)
    (inside : TakesOne g (g.body r) kind) :
    TakesOne g (.rule r) kind where
  takes rest holds := by
    have sameInside : g.inside r = g.body r := by simp [PegGrammar.inside, silent]
    have matched := Parses.ofInside (sameInside ▸ inside.takes rest holds)
    simpa [PegGrammar.trees, silent] using matched
  fails stops := .ofInsideFails (by simpa [PegGrammar.inside, silent] using inside.fails stops)

/-- The text from the first place on where something ends it. -/
def fromEnd
    (ends : List Char → Bool) :
    List Char → List Char
  | [] => []
  | c :: rest => if ends (c :: rest) then c :: rest else fromEnd ends rest

/-- Any characters are taken up to the first place where the terminator matches. -/
theorem parses_upTo
    {ends : List Char → Bool}
    (closes : ∀ cs, ends cs = true → ∃ found, g.Parses terminator cs (some found))
    (goesOn : ∀ cs, ends cs = false → g.Parses terminator cs none)
    (cs : List Char) :
    g.Parses (upTo terminator) cs (some ([], fromEnd ends cs)) := by
  induction cs with
  | nil =>
      refine .manyStops ?_
      cases atEnd : ends [] with
      | true =>
          obtain ⟨found, matched⟩ := closes [] atEnd
          exact .seqFails (.absentFails matched)
      | false =>
          exact .andThenFails (.absent (goesOn [] atEnd)) (takesOne_one.fails Text.stops_nil)
  | cons c rest inductionHypothesis =>
      cases atEnd : ends (c :: rest) with
      | true =>
          obtain ⟨found, matched⟩ := closes _ atEnd
          rw [fromEnd, if_pos atEnd]
          exact .manyStops (.seqFails (.absentFails matched))
      | false =>
          rw [fromEnd, if_neg (by simp [atEnd])]
          exact .more (.andThen (.absent (goesOn _ atEnd)) (takesOne_one.takes rest rfl))
            inductionHypothesis

end Pieces

section Layout

variable {cs rest : List Char}

/-- The rule of white space takes one blank. -/
theorem takesOne_whiteSpace :
    TakesOne grammar (.rule .whiteSpace) Query.isSpace := by
  have inside := ((takesOne_char (g := grammar) ' ').choice
    ((takesOne_char '\t').choice ((takesOne_char '\r').choice (takesOne_char '\n'))))
  have sameKind : (fun c => c == ' ' || (c == '\t' || (c == '\r' || c == '\n'))) =
      Query.isSpace := by
    funext c
    simp [Query.isSpace, Bool.or_assoc]
  rw [sameKind] at inside
  exact .silent rfl inside

/-- Whether a text begins with the end of a block comment. -/
def closesBlock : List Char → Bool
  | '*' :: '/' :: _ => true
  | _ => false

/-- Whether a text begins with the end of a line. -/
def closesLine : List Char → Bool
  | c :: _ => !Query.inLine c
  | [] => false

theorem fromEnd_closesLine
    (cs : List Char) :
    fromEnd closesLine cs = cs.dropWhile Query.inLine := by
  induction cs with
  | nil => rfl
  | cons c rest inductionHypothesis =>
      cases holds : Query.inLine c <;>
        simp [fromEnd, closesLine, holds, inductionHypothesis]

theorem fromEnd_closesBlock
    (cs : List Char) :
    fromEnd closesBlock cs =
      match Query.afterBlock? cs with
      | some rest => '*' :: '/' :: rest
      | none => [] := by
  fun_induction Query.afterBlock? cs with
  | case1 => rfl
  | case2 rest => rfl
  | case3 c rest notEnd inductionHypothesis =>
      have goesOn : closesBlock (c :: rest) = false := by
        unfold closesBlock
        split
        · rename_i shape
          obtain ⟨rfl, rfl⟩ := List.cons.inj shape
          exact (notEnd _ rfl rfl).elim
        · rfl
      rw [fromEnd, if_neg (by simp [goesOn]), inductionHypothesis]

/-- A comment in a line goes on to the end of the line. -/
theorem parses_upTo_newLine
    (cs : List Char) :
    grammar.Parses (upTo newLine) cs (some ([], cs.dropWhile Query.inLine)) := by
  rw [← fromEnd_closesLine]
  have noOther : ∀ (sign : String) (c : Char) {cs : List Char}, sign.toList.head? = some c →
      cs.head? ≠ some c → grammar.Parses (chars sign) cs none := by
    intro sign c cs first other
    refine not_parses_chars ?_
    rintro ⟨rest, rfl⟩
    exact other (by simp [first])
  refine parses_upTo ?_ ?_ cs
  · intro cs closes
    match cs with
    | c :: rest =>
        simp only [closesLine, Query.inLine, Bool.not_not, Bool.or_eq_true, beq_iff_eq] at closes
        rcases closes with rfl | rfl
        · exact ⟨_, .choiceFirst (parses_chars "\n" rest)⟩
        · by_cases pair : "\r\n".toList <+: '\r' :: rest
          · obtain ⟨others, shape⟩ := pair
            rw [← shape]
            exact ⟨_, .choiceSecond (noOther _ '\n' rfl (by simp))
              (.choiceFirst (parses_chars "\r\n" others))⟩
          · exact ⟨_, .choiceSecond (noOther _ '\n' rfl (by simp))
              (.choiceSecond (not_parses_chars pair) (parses_chars "\r" rest))⟩
  · intro cs goesOn
    have notEnd : cs.head? ≠ some '\n' ∧ cs.head? ≠ some '\r' := by
      cases cs with
      | nil => simp
      | cons c rest => simpa [closesLine, Query.inLine] using goesOn
    exact .choiceSecond (noOther _ '\n' rfl notEnd.1)
      (.choiceSecond (noOther _ '\r' rfl notEnd.2) (noOther _ '\r' rfl notEnd.2))

/-- A comment in a block goes on to the end of the block, or of the text. -/
theorem parses_upTo_blockEnd
    (cs : List Char) :
    grammar.Parses (upTo (chars "*/")) cs (some ([], fromEnd closesBlock cs)) := by
  refine parses_upTo ?_ ?_ cs
  · intro cs closes
    unfold closesBlock at closes
    split at closes
    · exact ⟨_, parses_chars "*/" _⟩
    · cases closes
  · intro cs goesOn
    refine not_parses_chars ?_
    rintro ⟨rest, rfl⟩
    cases goesOn

theorem not_parses_blockStart
    (other : ∀ others, cs ≠ '/' :: '*' :: others) :
    grammar.Parses (chars "/*") cs none :=
  not_parses_chars fun ⟨others, shape⟩ => other others shape.symm

/-- A comment is silent: it is matched as its body is. -/
theorem parses_comment
    {answer : Option (List (Tree Rule) × List Char)}
    (inside : grammar.Parses (body .comment) cs answer) :
    grammar.Parses (.rule .comment) cs answer := by
  have matched := Parses.rule (g := grammar) (r := .comment) inside
  have silent : (answer.map fun found =>
      (grammar.trees .comment (cs.take (cs.length - found.2.length)) found.1, found.2)) =
        answer := by
    cases answer <;> rfl
  rwa [silent] at matched

/-- A comment in a line is layout. -/
theorem parses_lineComment
    (rest : List Char) :
    grammar.Parses (.rule .comment) ('-' :: '-' :: rest)
      (some ([], rest.dropWhile Query.inLine)) := by
  refine parses_comment (.choiceSecond (.seqFails (not_parses_blockStart (by simp))) ?_)
  exact .andThen (parses_chars "--" rest) (parses_upTo_newLine rest)

/-- A comment in a block that is closed is layout. -/
theorem parses_blockComment
    {after : List Char}
    (closed : Query.afterBlock? rest = some after) :
    grammar.Parses (.rule .comment) ('/' :: '*' :: rest) (some ([], after)) := by
  have inner := parses_upTo_blockEnd rest
  rw [fromEnd_closesBlock, closed] at inner
  exact parses_comment (.choiceFirst
    (.andThen (parses_chars "/*" rest) (.andThen inner (parses_chars "*/" after))))

/-- There is no comment where no layout stands. -/
theorem not_parses_comment
    (bare : Query.Bare cs) :
    grammar.Parses (.rule .comment) cs none := by
  refine parses_comment (.choiceSecond ?_ (.seqFails (not_parses_chars ?_)))
  · by_cases opens : ∃ others, cs = '/' :: '*' :: others
    · obtain ⟨others, rfl⟩ := opens
      have inner := parses_upTo_blockEnd others
      rw [fromEnd_closesBlock, bare.noBlock others rfl] at inner
      exact .andThenFails (parses_chars "/*" others)
        (.andThenFails inner (not_parses_chars (by simp)))
    · exact .seqFails (not_parses_blockStart fun others shape => opens ⟨others, shape⟩)
  · rintro ⟨others, rfl⟩
    exact bare.noLine others rfl

/-- The layout of the grammar is matched as it is skipped, piece by piece. -/
theorem parses_layout_of_skips
    {last : List Char}
    (skips : Query.Skips cs last) :
    ∃ between, grammar.Parses (.many (.rule .whiteSpace)) cs (some ([], between)) ∧
      grammar.Parses (.many (.seq (.rule .comment) (.many (.rule .whiteSpace)))) between
        (some ([], last)) := by
  induction skips with
  | done bare =>
      exact ⟨_, .manyStops (takesOne_whiteSpace.fails bare.noSpace),
        .manyStops (.seqFails (not_parses_comment bare))⟩
  | space isSpace _ inductionHypothesis =>
      obtain ⟨between, spaces, comments⟩ := inductionHypothesis
      exact ⟨between, .more (takesOne_whiteSpace.takes _ isSpace) spaces, comments⟩
  | line _ inductionHypothesis =>
      obtain ⟨between, spaces, comments⟩ := inductionHypothesis
      exact ⟨_, .manyStops (takesOne_whiteSpace.fails (Text.stops_cons.mpr rfl)),
        .more (.andThen (parses_lineComment _) spaces) comments⟩
  | block closed _ inductionHypothesis =>
      obtain ⟨between, spaces, comments⟩ := inductionHypothesis
      exact ⟨_, .manyStops (takesOne_whiteSpace.fails (Text.stops_cons.mpr rfl)),
        .more (.andThen (parses_blockComment closed) spaces) comments⟩

/-- The layout of the grammar is what is skipped. -/
theorem parses_layout
    (cs : List Char) :
    grammar.Parses layout cs (some ([], Query.skipLayout .between cs)) := by
  obtain ⟨between, spaces, comments⟩ := parses_layout_of_skips (Query.skips_skipLayout cs)
  exact .andThen spaces comments

end Layout

end FullTextQuery.Syntax
