import FullTextQuery.Proofs.Text.Run
import FullTextQuery.Query.Lexeme

namespace FullTextQuery.Query

/-!
# Layout in steps

Layout is skipped piece by piece: a character of white space, a comment up to
the end of its line, or a block comment that is closed.  What `skipLayout` leaves
is reached by these pieces and begins with none.
-/

/-- Whether a character does not end a line. -/
def inLine
    (c : Char) :
    Bool :=
  !(c == '\n' || c == '\r')

/-- The text behind the first end of a block. -/
def afterBlock? : List Char → Option (List Char)
  | [] => none
  | '*' :: '/' :: rest => some rest
  | _ :: rest => afterBlock? rest

/-- Whether a text does not begin with a piece of layout. -/
structure Bare
    (cs : List Char) :
    Prop where
  noSpace : Text.Stops isSpace cs
  noLine : ∀ rest, cs ≠ '-' :: '-' :: rest
  noBlock : ∀ rest, cs = '/' :: '*' :: rest → afterBlock? rest = none

/-- Layout is taken off a text piece by piece. -/
inductive Skips : List Char → List Char → Prop where
  | done {cs : List Char} : Bare cs → Skips cs cs
  | space {c : Char} {rest last : List Char} :
      isSpace c = true → Skips rest last → Skips (c :: rest) last
  | line {rest last : List Char} :
      Skips (rest.dropWhile inLine) last → Skips ('-' :: '-' :: rest) last
  | block {rest after last : List Char} :
      afterBlock? rest = some after → Skips after last → Skips ('/' :: '*' :: rest) last

/-- A comment up to the end of its line is skipped, and the layout behind it. -/
theorem skipLayout_line
    (cs : List Char) :
    skipLayout .line cs = skipLayout .between (cs.dropWhile inLine) := by
  induction cs with
  | nil => simp [skipLayout]
  | cons c rest inductionHypothesis =>
      by_cases lineEnd : (c == '\n' || c == '\r') = true
      · rw [skipLayout, if_pos lineEnd, List.dropWhile_cons_of_neg (by simp [inLine, lineEnd])]
        simp only [Bool.or_eq_true, beq_iff_eq] at lineEnd
        rcases lineEnd with rfl | rfl <;> simp [skipLayout, isSpace]
      · rw [skipLayout, if_neg lineEnd, inductionHypothesis,
          List.dropWhile_cons_of_pos (by simpa [inLine] using lineEnd)]

/-- A block that is closed is skipped, and the layout behind it. -/
theorem skipLayout_block
    (start cs : List Char) :
    skipLayout (.block start) cs =
      match afterBlock? cs with
      | some rest => skipLayout .between rest
      | none => start := by
  fun_induction afterBlock? cs with
  | case1 => rfl
  | case2 rest => rw [skipLayout]
  | case3 c rest notEnd inductionHypothesis =>
      rw [skipLayout, inductionHypothesis]
      exact notEnd

/-- What follows a block is the end of the text. -/
theorem suffix_of_afterBlock?
    {cs rest : List Char}
    (found : afterBlock? cs = some rest) :
    rest <:+ cs := by
  fun_induction afterBlock? cs with
  | case1 => cases found
  | case2 rest =>
      cases found
      exact (List.suffix_cons _ _).trans (List.suffix_cons _ _)
  | case3 c others notEnd inductionHypothesis =>
      exact (inductionHypothesis found).trans (List.suffix_cons _ _)

/-- A character that begins no comment is skipped if it is white space. -/
theorem skipLayout_cons
    {c : Char}
    {rest : List Char}
    (noLine : ∀ others, c :: rest ≠ '-' :: '-' :: others)
    (noBlock : ∀ others, c :: rest ≠ '/' :: '*' :: others) :
    skipLayout .between (c :: rest) =
      if isSpace c then skipLayout .between rest else c :: rest := by
  refine skipLayout.eq_4 c rest ?_ ?_
  · rintro others rfl rfl
    exact noBlock _ rfl
  · rintro others rfl rfl
    exact noLine _ rfl

/-- Nothing is skipped in front of what is not layout. -/
theorem skipLayout_of_bare
    {cs : List Char}
    (bare : Bare cs) :
    skipLayout .between cs = cs := by
  match cs with
  | [] => rfl
  | c :: rest =>
      by_cases block : ∃ others, c :: rest = '/' :: '*' :: others
      · obtain ⟨others, shape⟩ := block
        rw [shape, skipLayout, skipLayout_block, bare.noBlock others shape]
      · rw [skipLayout_cons bare.noLine fun others shape => block ⟨others, shape⟩,
          if_neg (by simp [Text.stops_cons.mp bare.noSpace])]

/-- What is left is reached by taking layout off in pieces. -/
theorem skips_skipLayout
    (cs : List Char) :
    Skips cs (skipLayout .between cs) := by
  induction size : cs.length using Nat.strong_induction_on generalizing cs with
  | _ size inductionHypothesis =>
  subst size
  by_cases bare : Bare cs
  · rw [skipLayout_of_bare bare]
    exact .done bare
  · match cs with
    | [] => exact absurd ⟨by simp, by simp, by simp⟩ bare
    | c :: rest =>
        by_cases space : isSpace c = true
        · have step : skipLayout .between (c :: rest) = skipLayout .between rest := by
            rw [skipLayout_cons, if_pos space]
            · rintro others shape
              cases shape
              exact absurd space (by decide)
            · rintro others shape
              cases shape
              exact absurd space (by decide)
          rw [step]
          exact .space space (inductionHypothesis _ (by simp) rest rfl)
        · by_cases line : ∃ others, c :: rest = '-' :: '-' :: others
          · obtain ⟨others, shape⟩ := line
            rw [shape, skipLayout, skipLayout_line]
            refine .line (inductionHypothesis _ ?_ _ rfl)
            have := (List.dropWhile_suffix inLine (l := others)).length_le
            simp [shape]
            omega
          · by_cases block : ∃ others after, c :: rest = '/' :: '*' :: others ∧
                afterBlock? others = some after
            · obtain ⟨others, after, shape, closed⟩ := block
              rw [shape, skipLayout, skipLayout_block, closed]
              refine .block closed (inductionHypothesis _ ?_ _ rfl)
              have := (suffix_of_afterBlock? closed).length_le
              simp [shape]
              omega
            · refine absurd ⟨?_, ?_, ?_⟩ bare
              · simpa using space
              · exact fun others shape => line ⟨others, shape⟩
              · intro others shape
                by_contra closed
                obtain ⟨after, closed⟩ := Option.ne_none_iff_exists'.mp closed
                exact block ⟨others, after, shape, closed⟩

/-- What is left begins with no layout. -/
theorem Skips.bare
    {cs last : List Char}
    (skips : Skips cs last) :
    Bare last := by
  induction skips with
  | done bare => exact bare
  | space _ _ inductionHypothesis => exact inductionHypothesis
  | line _ inductionHypothesis => exact inductionHypothesis
  | block _ _ inductionHypothesis => exact inductionHypothesis

/-- What is left is the end of the text. -/
theorem Skips.suffix
    {cs last : List Char}
    (skips : Skips cs last) :
    last <:+ cs := by
  induction skips with
  | done => exact List.suffix_rfl
  | space _ _ inductionHypothesis => exact inductionHypothesis.trans (List.suffix_cons _ _)
  | line _ inductionHypothesis =>
      exact (inductionHypothesis.trans (List.dropWhile_suffix _)).trans
        ((List.suffix_cons _ _).trans (List.suffix_cons _ _))
  | block closed _ inductionHypothesis =>
      exact (inductionHypothesis.trans (suffix_of_afterBlock? closed)).trans
        ((List.suffix_cons _ _).trans (List.suffix_cons _ _))

/-- What is behind layout is an end of the text. -/
theorem skipLayout_suffix
    (cs : List Char) :
    skipLayout .between cs <:+ cs :=
  (skips_skipLayout cs).suffix

@[simp] theorem skipLayout_skipLayout
    (cs : List Char) :
    skipLayout .between (skipLayout .between cs) = skipLayout .between cs :=
  skipLayout_of_bare (skips_skipLayout cs).bare

end FullTextQuery.Query
