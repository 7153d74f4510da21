import FullTextQuery.Proofs.Outcome
import FullTextQuery.Proofs.Syntax.Agreement

namespace FullTextQuery

namespace Tree

variable {ρ : Type} {r : ρ} {covered : List Char} {inner : List (Tree ρ)}

@[simp] theorem rule_node :
    (node r covered inner).rule = r :=
  rfl

@[simp] theorem text_node :
    (node r covered inner).text = covered :=
  rfl

@[simp] theorem parts_node :
    (node r covered inner).parts = inner :=
  rfl

@[simp] theorem spelling_node :
    (node r covered inner).spelling = String.ofList covered :=
  rfl

end Tree

namespace Syntax

/-!
# Trees against readings

A matcher reads a value or reports the first integer that does not fit.  The
tree of the same text stands for that value, or its reader complains of an
unexpected tree because an integer in it does not fit; it never misses a part.
-/

open Query

variable {α β γ : Type}

@[simp] theorem next_cons
    (what : String)
    (t : Tree Rule)
    (others : List (Tree Rule)) :
    next what (t :: others) = .ok (t, others) :=
  rfl

@[simp] theorem allIntegersFit_nil :
    AllIntegersFit [] :=
  trivial

@[simp] theorem allIntegersFit_cons
    (t : Tree Rule)
    (others : List (Tree Rule)) :
    AllIntegersFit (t :: others) ↔ IntegersFit t ∧ AllIntegersFit others :=
  Iff.rfl

@[simp] theorem allIntegersFit_append
    (front back : List (Tree Rule)) :
    AllIntegersFit (front ++ back) ↔ AllIntegersFit front ∧ AllIntegersFit back := by
  induction front with
  | nil => simp
  | cons t others inductionHypothesis => simp [inductionHypothesis, and_assoc]

/-- Integers and counts apart, the integers of a tree are those of its parts. -/
theorem integersFit_node
    {r : Rule}
    {text : List Char}
    {parts : List (Tree Rule)}
    (notInteger : r ≠ .integer)
    (notTake : r ≠ .takeClause) :
    IntegersFit (.node r text parts) ↔ AllIntegersFit parts := by
  unfold IntegersFit
  split
  · rename_i shape
    cases shape
    contradiction
  · rename_i shape
    cases shape
    contradiction
  · rename_i shape
    cases shape
    rfl

/-- There is no integer in a tree without parts that is none itself. -/
theorem integersFit_leaf
    {r : Rule}
    {text : List Char}
    (notInteger : r ≠ .integer)
    (notTake : r ≠ .takeClause) :
    IntegersFit (.node r text []) :=
  (integersFit_node notInteger notTake).mpr trivial

/--
What a reader of trees makes of some trees and what a matcher reads of their text, given
whether the integers in them fit.
-/
inductive Settles (fits : Prop) : Except TreeError α → Reading α → Prop where
  | ok {value : α} : fits → Settles fits (.ok value) (.ok value)
  | misfit {rule : Rule} {text : List Char} {which : MisfitInteger} :
      ¬ fits → Settles fits (.error (.unexpected rule text)) (.error which)

namespace Settles

variable {fits more : Prop} {built : Except TreeError α} {reading : Reading α}

theorem congr
    (settles : Settles fits built reading)
    (same : more ↔ fits) :
    Settles more built reading := by
  cases settles with
  | ok holds => exact .ok (same.mpr holds)
  | misfit fails => exact .misfit (mt same.mp fails)

/-- Both sides go on with a part of their own. -/
theorem bind
    {builtNext : α → Except TreeError β}
    {next : α → Reading β}
    (one : Settles fits built reading)
    (two : ∀ value, Settles more (builtNext value) (next value)) :
    Settles (fits ∧ more) (built >>= builtNext) (reading >>= next) := by
  cases one with
  | misfit fails => exact .misfit fun both => fails both.1
  | @ok value holds => exact (two value).congr (and_iff_right holds)

theorem map
    (f : α → β)
    (settles : Settles fits built reading) :
    Settles fits (f <$> built) (f <$> reading) := by
  cases settles with
  | ok holds => exact .ok holds
  | misfit fails => exact .misfit fails

/-- The trees stand for a query exactly if the integers fit. -/
theorem iff_ok
    (settles : Settles fits built reading)
    {value : α} :
    reading = .ok value ↔ fits ∧ built = .ok value := by
  cases settles with
  | ok holds => simp [holds]
  | misfit fails => simp

/-- The trees stand for something if the integers in them fit. -/
theorem exists_ok
    (settles : Settles fits built reading)
    (holds : fits) :
    ∃ value, built = .ok value := by
  cases settles with
  | @ok value => exact ⟨value, rfl⟩
  | misfit fails => exact absurd holds fails

/-- Nothing is missing in the trees. -/
theorem not_missing
    (settles : Settles fits built reading)
    (what : String) :
    built ≠ .error (.missing what) := by
  cases settles <;> simp

end Settles

/-- One tree of a rule, which stands for what was read. -/
def Stands
    (r : Rule)
    (build : Tree Rule → Except TreeError α)
    (reading : Reading α)
    (trees : List (Tree Rule)) :
    Prop :=
  ∃ t : Tree Rule, trees = [t] ∧ t.rule = r ∧ Settles (IntegersFit t) (build t) reading

/-- Arguments are read one by one. -/
theorem settles_argsOf
    {r : Rule}
    {readings : List (Reading Expr)}
    {trees : List (Tree Rule)}
    (gathered : Gathered (Stands r exprOf) readings trees) :
    Settles (AllIntegersFit trees) (argsOf trees) (Grammar.collect readings) := by
  induction gathered with
  | nil =>
      rw [argsOf]
      exact .ok trivial
  | cons isRead _ inductionHypothesis =>
      obtain ⟨t, rfl, -, settles⟩ := isRead
      rw [List.singleton_append, argsOf, Grammar.collect]
      exact settles.bind fun value => inductionHypothesis.map (value :: ·)

theorem isKeyword_eq_false
    {t : Tree Rule}
    (noKeyword : ∀ word, t.rule ≠ .keyword word) :
    isKeyword t = false := by
  unfold isKeyword
  split
  · rename_i word shape
    exact absurd shape (noKeyword word)
  · rfl

/-- A tree behind a keyword. -/
def BehindKeyword
    (r : Rule)
    (reading : Reading Expr)
    (trees : List (Tree Rule)) :
    Prop :=
  ∃ word text t, trees = [.node (.keyword word) text [], t] ∧ t.rule = r ∧
    Settles (IntegersFit t) (exprOf t) reading

/-- The trees of a chain are read one by one, the keywords between them left out. -/
theorem settles_exprsOf
    {r : Rule}
    {readings : List (Reading Expr)}
    {trees : List (Tree Rule)}
    (noKeyword : ∀ word, r ≠ .keyword word)
    (gathered : Gathered (BehindKeyword r) readings trees) :
    Settles (AllIntegersFit trees) (exprsOf trees) (Grammar.collect readings) := by
  induction gathered with
  | nil =>
      rw [exprsOf]
      exact .ok trivial
  | cons isRead _ inductionHypothesis =>
      obtain ⟨word, text, t, rfl, isRule, settles⟩ := isRead
      have notKeyword := isKeyword_eq_false (isRule ▸ noKeyword)
      have keyword : isKeyword (.node (.keyword word) text []) = true := rfl
      rw [List.cons_append, List.singleton_append, exprsOf, if_pos keyword, exprsOf,
        if_neg (by simp [notKeyword]), Grammar.collect]
      refine (settles.bind fun value => inductionHypothesis.map (value :: ·)).congr ?_
      simp [integersFit_leaf]

/-- Grouping to the left goes through the readings in order. -/
theorem groupLeft_eq
    (combine : Expr → Expr → Expr)
    (start : Reading Expr)
    (readings : List (Reading Expr)) :
    Grammar.groupLeft combine start readings =
      (do
        let first ← start
        let others ← Grammar.collect readings
        return others.foldl combine first) := by
  induction readings generalizing start with
  | nil => cases start <;> rfl
  | cons reading readings inductionHypothesis =>
      have step : Grammar.groupLeft combine start (reading :: readings) =
          Grammar.groupLeft combine
            (do
              let l ← start
              let r ← reading
              return combine l r) readings := rfl
      rw [step, inductionHypothesis, Grammar.collect]
      cases start with
      | error which => rfl
      | ok first =>
          cases reading with
          | error which => rfl
          | ok second => cases Grammar.collect readings <;> rfl

/-- A chain stands for its parts combined from left to right. -/
theorem settles_chain
    {r : Rule}
    {combine : Expr → Expr → Expr}
    {start : Reading Expr}
    {readings : List (Reading Expr)}
    {front trees : List (Tree Rule)}
    (noKeyword : ∀ word, r ≠ .keyword word)
    (isRead : Stands r exprOf start front)
    (gathered : Gathered (BehindKeyword r) readings trees) :
    Settles (AllIntegersFit (front ++ trees)) (exprsOf (front ++ trees) >>= foldLeft combine)
      (Grammar.groupLeft combine start readings) := by
  obtain ⟨t, rfl, isRule, settles⟩ := isRead
  have built : exprsOf ([t] ++ trees) >>= foldLeft combine =
      exprOf t >>= fun first => (fun others => others.foldl combine first) <$> exprsOf trees := by
    rw [List.singleton_append, exprsOf,
      if_neg (by simp [isKeyword_eq_false (isRule ▸ noKeyword)])]
    cases exprOf t with
    | error e => rfl
    | ok first => cases exprsOf trees <;> rfl
  rw [built, groupLeft_eq]
  exact settles.bind fun first => (settles_exprsOf noKeyword gathered).map _

end Syntax

end FullTextQuery
