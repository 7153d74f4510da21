import FullTextQuery.Binary64.Nearest
import FullTextQuery.Proofs.Sql.Parsing

namespace FullTextQuery

/-!
# What written expressions are read as

The text of an expression is read as the expression itself unless a comparison
has a membership test as its right side: the test is written without
parentheses of its own, so it is read as a test of the whole comparison.  Apart
from that only a NUL between quotes keeps a text from being read, and only a store
that misses the nearest double takes a real for another.
-/

namespace Sql

/-- The term that a whole text is read as. -/
def readTerm?
    [NumeralReading]
    (text : String) :
    Option Term := do
  let tokens ← tokens? text
  let (term, rest) ← Reader.term? tokens
  if rest.isEmpty then
    return term
  else
    none

end Sql

namespace RelExpr

open Sql

mutual

/-- The term that an expression stands for, with function names in upper case. -/
def toTerm : RelExpr → Term
  | .member _ property => .name property
  | .column tableAlias name => .column tableAlias name
  | .literal value => .literal value
  | .parameter name => .parameter name
  | .compare left op right => .compare (toTerm left) (operatorOf op right) (toTerm right)
  | .and left right => .and (toTerm left) (toTerm right)
  | .or left right => .or (toTerm left) (toTerm right)
  | .not operand => .not (toTerm operand)
  | .function name args => .call (upperName name) (toTerms args)
  | .membership operand valueSet _ => .inArray (toTerm operand) valueSet

/-- The terms that arguments stand for. -/
def toTerms : List RelExpr → List Term
  | [] => []
  | e :: es => toTerm e :: toTerms es

end

/-- Whether a part of an expression is no number that has no numeral. -/
def finitePart : RelExpr → Bool
  | .literal (.real x) => decide (x.code < Binary64.infinityCode)
  | _ => true

/-- Whether all reals in an expression are finite. -/
def Finite
    (e : RelExpr) :
    Prop :=
  e.Every (·.finitePart = true)

/-- Whether a part of an expression is no number that a store takes for another. -/
def readsBackPart
    [NumeralReading] :
    RelExpr → Bool
  | .literal (.real x) => decide x.ReadsBack
  | _ => true

/-- Whether the store takes all reals in an expression for what they are. -/
def ReadsBack
    [NumeralReading]
    (e : RelExpr) :
    Prop :=
  e.Every (·.readsBackPart = true)

/-- Whether a part of an expression is no comparison with a membership test on the right. -/
def groupedPart : RelExpr → Bool
  | .compare _ _ (.membership ..) => false
  | _ => true

/-- Whether no comparison in an expression has a membership test as its right side. -/
def Grouped
    (e : RelExpr) :
    Prop :=
  e.Every (·.groupedPart = true)

instance
    (e : RelExpr) :
    Decidable e.Finite :=
  inferInstanceAs (Decidable (e.Every (·.finitePart = true)))

instance
    (e : RelExpr) :
    Decidable e.Grouped :=
  inferInstanceAs (Decidable (e.Every (·.groupedPart = true)))

/-- An expression stands for what its core stands for, with its last tests behind it. -/
theorem toTerm_eq_core
    (e : RelExpr) :
    e.toTerm = e.core.toTerm.withTests e.tests := by
  induction e with
  | membership operand valueSet search same =>
      rw [toTerm, core, tests, same, Term.withTests, Term.withTests, List.foldl_append]
      rfl
  | _ => rfl

/-- Tests behind terms keep different terms apart. -/
theorem withTests_inj
    {first second : Term}
    {valueSets : List String} :
    first.withTests valueSets = second.withTests valueSets ↔ first = second := by
  induction valueSets generalizing first second with
  | nil => exact Iff.rfl
  | cons valueSet valueSets inductionHypothesis =>
      have step : (Term.inArray first valueSet).withTests valueSets =
          (Term.inArray second valueSet).withTests valueSets ↔
            Term.inArray first valueSet = .inArray second valueSet :=
        inductionHypothesis
      simpa [Term.withTests] using step

/-- With tests behind it, a term is what an expression stands for exactly if it is its core. -/
theorem withTests_eq_toTerm_iff
    {e : RelExpr}
    {term : Term} :
    term.withTests e.tests = e.toTerm ↔ term = e.core.toTerm := by
  rw [toTerm_eq_core, withTests_inj]

/-- A comparison with a test behind it is no comparison. -/
theorem withTests_ne_compare
    {term left right : Term}
    {op : Operator}
    {valueSets : List String}
    (someTest : valueSets ≠ []) :
    term.withTests valueSets ≠ .compare left op right := by
  obtain ⟨others, last, rfl⟩ := List.eq_nil_or_concat' valueSets |>.resolve_left someTest
  rw [Term.withTests, List.foldl_append]
  simp

/-- The comparisons with a test on the right are those that are grouped otherwise. -/
theorem groupedPart_compare_iff
    {left right : RelExpr}
    {op : Comparison} :
    (RelExpr.compare left op right).groupedPart = true ↔ right.tests = [] := by
  cases right <;> simp [groupedPart, tests]

/-- Arguments are read, and as what they stand for exactly if each of them is. -/
theorem exists_groupedAll?
    [NumeralReading]
    {args : List RelExpr}
    (each : ∀ arg ∈ args, ∃ term, arg.core? = some term ∧
      (term = arg.core.toTerm ↔ arg.Grouped ∧ arg.ReadsBack)) :
    ∃ terms, groupedAll? args = some terms ∧
      (terms = toTerms args ↔ ∀ arg ∈ args, arg.Grouped ∧ arg.ReadsBack) := by
  induction args with
  | nil => exact ⟨[], rfl, by simp [toTerms]⟩
  | cons arg args inductionHypothesis =>
      obtain ⟨⟨term, argCore, argSame⟩, argsEach⟩ := List.forall_mem_cons.mp each
      obtain ⟨terms, argsRead, argsSame⟩ := inductionHypothesis argsEach
      refine ⟨_, by rw [groupedAll?, argCore, argsRead]; rfl, ?_⟩
      rw [toTerms, List.forall_mem_cons, List.cons.injEq]
      exact and_congr (withTests_eq_toTerm_iff.trans argSame) argsSame

/-- A finite literal is read as a literal, and as itself exactly if it reads back. -/
theorem exists_core?_literal
    [NumeralReading]
    {value : Value}
    (finite : (RelExpr.literal value).Finite) :
    ∃ read, (RelExpr.literal value).core? = some (.literal read) ∧
      (read = value ↔ (RelExpr.literal value).ReadsBack) := by
  cases value with
  | real x =>
      simp only [Finite, every_literal, finitePart, decide_eq_true_eq] at finite
      have isNumber := Binary64.code_lt_infinityCode_iff.mp finite
      refine ⟨.real x.readBack, by simp [core?, literalTerm?, isNumber], ?_⟩
      simp [ReadsBack, readsBackPart, Binary64.ReadsBack, finite]
  | null => exact ⟨_, rfl, by simp [ReadsBack, readsBackPart]⟩
  | integer n => exact ⟨_, rfl, by simp [ReadsBack, readsBackPart]⟩
  | text s => exact ⟨_, rfl, by simp [ReadsBack, readsBackPart]⟩

/--
The core of an expression is read, and as what it stands for exactly if it is grouped so
and its reals read back.
-/
theorem exists_core?
    [NumeralReading]
    {e : RelExpr}
    (plain : e.Plain)
    (finite : e.Finite) :
    ∃ term, e.core? = some term ∧ (term = e.core.toTerm ↔ e.Grouped ∧ e.ReadsBack) := by
  induction e with
  | member item property => simp [Plain, plainPart] at plain
  | column tableAlias name =>
      exact ⟨_, rfl, by simp [core, toTerm, Grouped, groupedPart, ReadsBack, readsBackPart]⟩
  | literal value =>
      obtain ⟨read, isCore, same⟩ := exists_core?_literal finite
      exact ⟨.literal read, isCore, by simpa [core, toTerm, Grouped, groupedPart] using same⟩
  | parameter name =>
      exact ⟨_, rfl, by simp [core, toTerm, Grouped, groupedPart, ReadsBack, readsBackPart]⟩
  | compare left op right leftRead rightRead =>
      simp only [Plain, Finite, every_compare] at plain finite
      obtain ⟨leftTerm, leftCore, leftSame⟩ := leftRead plain.2.1 finite.2.1
      obtain ⟨rightTerm, rightCore, rightSame⟩ := rightRead plain.2.2 finite.2.2
      refine ⟨_, by rw [core?, leftCore, rightCore]; rfl, ?_⟩
      simp only [core, toTerm]
      rw [Grouped, ReadsBack, every_compare, every_compare, groupedPart_compare_iff,
        toTerm_eq_core right]
      by_cases noTests : right.tests = []
      · rw [noTests]
        simp only [Term.withTests, List.foldl_nil, Term.compare.injEq, readsBackPart, true_and]
        exact (and_congr (withTests_eq_toTerm_iff.trans leftSame) rightSame).trans
          and_and_and_comm
      · simp only [noTests, false_and, iff_false]
        exact withTests_ne_compare noTests
  | and left right leftRead rightRead =>
      simp only [Plain, Finite, every_and] at plain finite
      obtain ⟨leftTerm, leftCore, leftSame⟩ := leftRead plain.2.1 finite.2.1
      obtain ⟨rightTerm, rightCore, rightSame⟩ := rightRead plain.2.2 finite.2.2
      refine ⟨_, by rw [core?, leftCore, rightCore]; rfl, ?_⟩
      simp only [core, toTerm]
      rw [Grouped, ReadsBack, every_and, every_and, Term.and.injEq]
      simp only [groupedPart, readsBackPart, true_and]
      exact (and_congr (withTests_eq_toTerm_iff.trans leftSame)
        (withTests_eq_toTerm_iff.trans rightSame)).trans and_and_and_comm
  | or left right leftRead rightRead =>
      simp only [Plain, Finite, every_or] at plain finite
      obtain ⟨leftTerm, leftCore, leftSame⟩ := leftRead plain.2.1 finite.2.1
      obtain ⟨rightTerm, rightCore, rightSame⟩ := rightRead plain.2.2 finite.2.2
      refine ⟨_, by rw [core?, leftCore, rightCore]; rfl, ?_⟩
      simp only [core, toTerm]
      rw [Grouped, ReadsBack, every_or, every_or, Term.or.injEq]
      simp only [groupedPart, readsBackPart, true_and]
      exact (and_congr (withTests_eq_toTerm_iff.trans leftSame)
        (withTests_eq_toTerm_iff.trans rightSame)).trans and_and_and_comm
  | not operand operandRead =>
      simp only [Plain, Finite, every_not] at plain finite
      obtain ⟨term, core, same⟩ := operandRead plain.2 finite.2
      refine ⟨_, by rw [core?, core]; rfl, ?_⟩
      simp only [RelExpr.core, toTerm]
      rw [Grouped, ReadsBack, every_not, every_not, Term.not.injEq]
      simp only [groupedPart, readsBackPart, true_and]
      exact withTests_eq_toTerm_iff.trans same
  | function name args argRead =>
      simp only [Plain, Finite, every_function] at plain finite
      obtain ⟨terms, read, same⟩ := exists_groupedAll? fun arg member =>
        argRead arg member (plain.2 arg member) (finite.2 arg member)
      refine ⟨_, by rw [core?, read]; rfl, ?_⟩
      simp only [core, toTerm]
      rw [Grouped, ReadsBack, every_function, every_function]
      simp only [groupedPart, readsBackPart, true_and, Term.call.injEq]
      exact same.trans forall₂_and
  | membership operand valueSet search operandRead =>
      simp only [Plain, Finite, every_membership] at plain finite
      obtain ⟨term, read, same⟩ := operandRead plain.2 finite.2
      refine ⟨term, read, ?_⟩
      rw [core, same, Grouped, Grouped, ReadsBack, ReadsBack, every_membership, every_membership]
      simp [groupedPart, readsBackPart]

/-- What the text of a plain expression is read as. -/
theorem readTerm?_text
    [NumeralReading]
    {e : RelExpr}
    (plain : e.Plain) :
    readTerm? e.text = if e.NulFree then e.grouped? else none := by
  have read : Reader.term? (e.tokens ++ []) = e.grouped?.map (·, []) :=
    Reader.term?_tokens plain (by simp [Reader.NotCall]) (by simp [Reader.StopsAt, Reader.infix?])
  rw [List.append_nil] at read
  rw [readTerm?, tokens?_text plain]
  split
  · rw [Option.bind_eq_bind, Option.bind_some, read]
    cases e.grouped? <;> rfl
  · rfl

/--
The text that an expression is written as is read as the expression exactly if no
comparison has a membership test on the right, no NUL is quoted, and the store takes
the literal of every real for the real.
-/
theorem readTerm?_written_iff
    [NumeralReading]
    {e : RelExpr}
    {listed : List StatementParameter}
    {written : StatementText}
    (plain : e.Plain)
    (finite : e.Finite)
    (isWritten : Writer.expr e ⟨"", listed⟩ = .ok ((), written)) :
    readTerm? written.text = some e.toTerm ↔ e.Grouped ∧ e.NulFree ∧ e.ReadsBack := by
  have isText : written.text = e.text := by
    rw [Writer.expr_eq_writes plain.resolved, Writer.writes] at isWritten
    obtain ⟨parameters, -, same⟩ := Except.map_eq_ok.mp isWritten
    simpa using (congrArg (·.2.text) same).symm
  obtain ⟨core, isCore, same⟩ := exists_core? plain finite
  have grouped : e.grouped? = some e.toTerm ↔ e.Grouped ∧ e.ReadsBack := by
    rw [grouped?, isCore, Option.map_some, Option.some.injEq, withTests_eq_toTerm_iff, same]
  rw [isText, readTerm?_text plain, and_left_comm, ← grouped]
  by_cases nulFree : e.NulFree
  · simp [nulFree]
  · simp [nulFree]

/-- A store that takes every numeral for the nearest number reads back all finite reals. -/
theorem Finite.readsBack
    [NumeralReading]
    {e : RelExpr}
    (finite : e.Finite)
    (nearest : ∀ negative numeral,
      NumeralReading.real negative numeral = Binary64.ofNumeral negative numeral) :
    e.ReadsBack := by
  intro part isPart
  have partFinite := finite part isPart
  unfold finitePart at partFinite
  unfold readsBackPart
  split
  · exact decide_eq_true (Binary64.readsBack_of_nearest (nearest _ _)
      (of_decide_eq_true partFinite))
  · rfl

/-- A comparison of a number with a search, as it is planned. -/
def oneIsFound : RelExpr :=
  .compare (.literal (.integer 1)) .eq (.membership (.column "c" "Id") "search_ids_1" 1)

/-- The comparison with a search on the right is read as a search for the outcome of another. -/
theorem readTerm?_oneIsFound :
    oneIsFound.Plain ∧ oneIsFound.Finite ∧
      ∃ written, Writer.expr oneIsFound ⟨"", []⟩ = .ok ((), written) ∧
        readTerm? written.text ≠ some oneIsFound.toTerm := by
  have plain : oneIsFound.Plain := by decide
  have finite : oneIsFound.Finite := by decide
  obtain ⟨written, isWritten⟩ : ∃ written, Writer.expr oneIsFound ⟨"", []⟩ = .ok ((), written) :=
    ⟨_, rfl⟩
  refine ⟨plain, finite, written, isWritten, fun same => ?_⟩
  have grouped := ((readTerm?_written_iff plain finite isWritten).mp same).1
  exact absurd grouped (by decide)

end RelExpr

end FullTextQuery
