import FullTextQuery.Query.Parser
import Mathlib.Data.List.Basic

/-!
# Positions in a text

A text is cut into lines, and a position is one of the text if it is in one of its lines or
behind the last character of one.  The position that is reported for a place in a text always
is.  What stands in front of a text in its first line moves the positions in that line to the
right, and no others.
-/

namespace FullTextQuery

namespace Text

/-- The lines of a text: each ends at `\n`, at `\r\n` or at the end of the text. -/
def lines : List Char → List (List Char)
  | [] => [[]]
  | '\r' :: '\n' :: rest => [] :: lines rest
  | '\n' :: rest => [] :: lines rest
  | c :: rest => (lines rest).modifyHead (c :: ·)

example : (lines "a\r\nb\rc\n".toList).map String.ofList = ["a", "b\rc", ""] := by decide

variable {c : Char} {rest : List Char}

/-- Whether a character in front of a text ends a line there. -/
def EndsLine
    (c : Char)
    (rest : List Char) :
    Prop :=
  c = '\n' ∨ c = '\r' ∧ ∃ others, rest = '\n' :: others

/-- A text has a first line. -/
theorem exists_lines_cons
    (cs : List Char) :
    ∃ line others, lines cs = line :: others := by
  apply List.exists_cons_of_ne_nil
  fun_induction lines cs <;> simp_all

/-- A character that ends no line is in the first line. -/
theorem lines_cons_of_not_endsLine
    (goesOn : ¬ EndsLine c rest) :
    lines (c :: rest) = (lines rest).modifyHead (c :: ·) := by
  rw [lines]
  · intro others isReturn isFeed
    exact goesOn (.inr ⟨isReturn, others, isFeed⟩)
  · exact fun isFeed => goesOn (.inl isFeed)

end Text

namespace Position

open Text (lines EndsLine)

/-- Whether a position is one of a text: in one of its lines, or behind its last character. -/
def IsIn
    (position : Position)
    (cs : List Char) :
    Prop :=
  1 ≤ position.line ∧ 1 ≤ position.column ∧
    ∃ line ∈ (lines cs)[position.line - 1]?, position.column ≤ line.length + 1

instance (position : Position) (cs : List Char) : Decidable (position.IsIn cs) :=
  inferInstanceAs (Decidable (_ ∧ _ ∧ ∃ line ∈ (lines cs)[position.line - 1]?, _))

/-- The position with more columns in front of it in one line, and the same in other lines. -/
def shift
    (position : Position)
    (line columns : Nat) :
    Position :=
  if position.line = line then ⟨line, position.column + columns⟩ else position

/-- Whether a position is one of a text that begins at a given position. -/
def LiesFrom
    (start : Position)
    (cs : List Char)
    (position : Position) :
    Prop :=
  ∃ below line, (lines cs)[below]? = some line ∧ position.line = start.line + below ∧
    (if below = 0 then start.column else 1) ≤ position.column ∧
      position.column ≤ (if below = 0 then start.column else 1) + line.length

section Advance

variable {start position : Position} {c : Char} {cs rest : List Char} {count : Nat}

theorem liesFrom_start
    (start : Position)
    (cs : List Char) :
    LiesFrom start cs start := by
  obtain ⟨line, others, shape⟩ := Text.exists_lines_cons cs
  exact ⟨0, line, by simp [shape], by simp⟩

/-- A place behind the end of a line is a place of the whole text. -/
theorem LiesFrom.behindLine
    (lies : LiesFrom ⟨start.line + 1, 1⟩ rest position)
    (shape : lines cs = [] :: lines rest) :
    LiesFrom start cs position := by
  obtain ⟨below, line, isLine, sameLine, least, most⟩ := lies
  rw [ite_self] at least most
  refine ⟨below + 1, line, by rwa [shape, List.getElem?_cons_succ], ?_, by simpa, by simpa⟩
  dsimp only at sameLine
  omega

/-- A place behind a character of a line is a place of the whole text. -/
theorem LiesFrom.behindCharacter
    (lies : LiesFrom ⟨start.line, start.column + 1⟩ rest position)
    (goesOn : ¬ EndsLine c rest) :
    LiesFrom start (c :: rest) position := by
  obtain ⟨below, line, isLine, sameLine, least, most⟩ := lies
  obtain ⟨first, others, shape⟩ := Text.exists_lines_cons rest
  rw [LiesFrom, Text.lines_cons_of_not_endsLine goesOn, shape, List.modifyHead_cons]
  rw [shape] at isLine
  cases below with
  | zero =>
      cases isLine
      simp only [if_true] at least most
      refine ⟨0, c :: line, rfl, sameLine, ?_⟩
      simp only [if_true, List.length_cons]
      omega
  | succ below => exact ⟨below + 1, line, isLine, sameLine, least, most⟩

/-- The last case of `advance` is that of a character that ends no line. -/
theorem not_endsLine
    (notLast : ∀ others, count = 0 → c = '\r' → rest = '\n' :: others → False)
    (notReturn : ∀ more others, count = more + 1 → c = '\r' → rest = '\n' :: others → False)
    (notFeed : c = '\n' → False) :
    ¬ EndsLine c rest := by
  rintro (isFeed | ⟨isReturn, others, shape⟩)
  · exact notFeed isFeed
  · cases count with
    | zero => exact notLast others rfl isReturn shape
    | succ count => exact notReturn count others rfl isReturn shape

/-- A character that ends no line moves the place by one column. -/
theorem advance_cons_of_not_endsLine
    (goesOn : ¬ EndsLine c rest)
    (position : Position)
    (count : Nat) :
    position.advance (count + 1) (c :: rest) =
      (Position.mk position.line (position.column + 1)).advance count rest := by
  rw [advance]
  · intro others isLast isReturn isFeed
    exact goesOn (.inr ⟨isReturn, others, isFeed⟩)
  · intro more others isLast isReturn isFeed
    exact goesOn (.inr ⟨isReturn, others, isFeed⟩)
  · exact fun isFeed => goesOn (.inl isFeed)

/-- Moving on from a place in a text leads to a place of this text. -/
theorem liesFrom_advance
    (position : Position)
    (count : Nat)
    (cs : List Char) :
    LiesFrom position cs (position.advance count cs) := by
  fun_induction advance position count cs with
  | case1 position cs => exact liesFrom_start position cs
  | case2 position count => exact liesFrom_start position []
  | case3 position rest => exact (liesFrom_start _ rest).behindLine (by rw [lines])
  | case4 position count rest inductionHypothesis =>
      exact inductionHypothesis.behindLine (by rw [lines])
  | case5 position count rest inductionHypothesis =>
      exact inductionHypothesis.behindLine (by rw [lines])
  | case6 position count c rest notLast notReturn notFeed inductionHypothesis =>
      exact inductionHypothesis.behindCharacter (not_endsLine notLast notReturn notFeed)

/-- Behind the end of a line there is no way back to it. -/
theorem line_advance_ne
    (position : Position)
    (count : Nat)
    (cs : List Char) :
    ((Position.mk (position.line + 1) 1).advance count cs).line ≠ position.line := by
  obtain ⟨below, -, -, sameLine, -⟩ := liesFrom_advance ⟨position.line + 1, 1⟩ count cs
  dsimp only at sameLine
  omega

/-- The position where so many characters are left is one of the text. -/
theorem isIn_ofLeft
    (cs : List Char)
    (left : Nat) :
    (ofLeft cs left).IsIn cs := by
  obtain ⟨below, line, isLine, sameLine, least, most⟩ :=
    liesFrom_advance ⟨1, 1⟩ (cs.length - left) cs
  rw [ite_self] at least most
  rw [← ofLeft] at sameLine least most
  dsimp only at sameLine most
  refine ⟨by omega, least, line, ?_, by omega⟩
  rwa [sameLine, Nat.add_sub_cancel_left]

theorem line_shift
    (position : Position)
    (line columns : Nat) :
    (position.shift line columns).line = position.line := by
  unfold shift
  split
  · exact Eq.symm ‹_›
  · rfl

theorem shift_of_ne
    {line : Nat}
    (otherLine : position.line ≠ line)
    (columns : Nat) :
    position.shift line columns = position :=
  if_neg otherLine

/-- More columns in front of the start are more in its line only. -/
theorem advance_shift
    (position : Position)
    (columns count : Nat)
    (cs : List Char) :
    (Position.mk position.line (position.column + columns)).advance count cs =
      (position.advance count cs).shift position.line columns := by
  fun_induction advance position count cs with
  | case1 position cs => simp [advance, shift]
  | case2 position count => simp [advance, shift]
  | case3 position rest => simp [advance, shift]
  | case4 position count rest inductionHypothesis =>
      rw [advance, shift_of_ne (line_advance_ne position count rest)]
  | case5 position count rest inductionHypothesis =>
      rw [advance, shift_of_ne (line_advance_ne position count rest)]
  | case6 position count c rest notLast notReturn notFeed inductionHypothesis =>
      rw [← inductionHypothesis, Nat.add_right_comm,
        advance_cons_of_not_endsLine (not_endsLine notLast notReturn notFeed)]

end Advance

/-- Characters that end no line take a column each. -/
theorem advance_append
    {front : List Char}
    (oneLine : ∀ c ∈ front, c ≠ '\n' ∧ c ≠ '\r')
    (position : Position)
    (count : Nat)
    (cs : List Char) :
    position.advance (front.length + count) (front ++ cs) =
      (Position.mk position.line (position.column + front.length)).advance count cs := by
  induction front generalizing position with
  | nil => simp
  | cons c front inductionHypothesis =>
      obtain ⟨first, others⟩ := List.forall_mem_cons.mp oneLine
      have goesOn : ¬ EndsLine c (front ++ cs) := by
        rintro (isFeed | ⟨isReturn, -⟩)
        · exact first.1 isFeed
        · exact first.2 isReturn
      rw [List.length_cons, Nat.add_right_comm, List.cons_append,
        advance_cons_of_not_endsLine goesOn, inductionHypothesis others]
      simp only [Nat.add_assoc, Nat.add_comm 1]

/-- What stands in front of a text in its first line shifts its positions. -/
theorem ofLeft_append
    {front cs : List Char}
    {left : Nat}
    (oneLine : ∀ c ∈ front, c ≠ '\n' ∧ c ≠ '\r')
    (within : left ≤ cs.length) :
    ofLeft (front ++ cs) left = (ofLeft cs left).shift 1 front.length := by
  have behind : (front ++ cs).length - left = front.length + (cs.length - left) := by
    rw [List.length_append]
    omega
  rw [ofLeft, behind, advance_append oneLine, advance_shift, ofLeft]

end Position
end FullTextQuery
