import FullTextQuery.Proofs.Store.Alike

namespace FullTextQuery.Store.Search

/-!
# Searches that come to the same

Two searches of the same tables with expressions that stand for the same.  If both
succeed, they have the same results in the same order.  Unless they are taken leniently,
one succeeds exactly if the other does.
-/

variable [NumeralReading]

/-- Two searches of the same tables with expressions that stand for the same. -/
structure Alike
    (lenient : Prop)
    (search other : Search) :
    Prop where
  sources : other.sources = search.sources
  results : List.Forall₂ (Scalar.Alike lenient) search.results other.results
  holds : ∀ row,
    other.conditions.all (Scalar.isTrue row) = search.conditions.all (Scalar.isTrue row)
  conditions : ¬lenient → List.Forall₂ Scalar.SameEvaluation search.conditions other.conditions
  ordering : List.Forall₂ (fun sort otherSort =>
      sort.scalar.Alike lenient otherSort.scalar ∧ otherSort.descending = sort.descending)
    search.ordering other.ordering
  limit : other.limit? = search.limit?

section Keys

variable {sorts others : List SortScalar}
  (directions : List.Forall₂ (fun sort other => other.descending = sort.descending) sorts others)

include directions

omit [NumeralReading] in
/-- The order of keys depends on the directions only. -/
theorem compareKeys_congr :
    compareKeys others = compareKeys sorts := by
  induction directions with
  | nil =>
      funext key other
      cases key <;> rfl
  | @cons sort other _ _ sameDirection _ inductionHypothesis =>
      funext key otherKey
      cases key with
      | nil => rfl
      | cons a key =>
          cases otherKey with
          | nil => rfl
          | cons b otherKey => rw [compareKeys, compareKeys, sameDirection, inductionHypothesis]

omit [NumeralReading] in
/-- Results are ranked by the directions alone. -/
theorem insertRanked_congr
    (ranked : Ranked)
    (kept : List Ranked) :
    insertRanked others ranked kept = insertRanked sorts ranked kept := by
  induction kept with
  | nil => rfl
  | cons first rest inductionHypothesis =>
      rw [insertRanked, insertRanked, compareKeys_congr directions, inductionHypothesis]

end Keys

/-- Conditions that are evaluated alike hold alike. -/
theorem allHold_toOption
    {conditions others : List Scalar}
    (same : List.Forall₂ Scalar.SameEvaluation conditions others)
    (row : JoinedRow) :
    (allHold row others).toOption = (allHold row conditions).toOption := by
  induction same with
  | nil => rfl
  | cons first _ inductionHypothesis =>
      simp only [allHold, Except.toOption_bind, first.holds]
      refine Option.bind_congr fun holds _ => ?_
      cases holds with
      | true => exact inductionHypothesis
      | false => rfl

/-- Of conditions that are evaluated alike, the same ones read no table. -/
theorem filter_isConstant
    {conditions others : List Scalar}
    (same : List.Forall₂ Scalar.SameEvaluation conditions others) :
    List.Forall₂ Scalar.SameEvaluation (conditions.filter Scalar.isConstant)
      (others.filter Scalar.isConstant) := by
  induction same with
  | nil => exact .nil
  | @cons condition other _ _ first _ inductionHypothesis =>
      rw [List.filter_cons, List.filter_cons, first.constant]
      cases condition.isConstant with
      | true => exact .cons first inductionHypothesis
      | false => exact inductionHypothesis

/-- Expressions that are evaluated alike have the same values, if they have any. -/
theorem values_toOption
    {scalars others : List Scalar}
    (same : List.Forall₂ Scalar.SameEvaluation scalars others)
    (row : JoinedRow) :
    (values row others).toOption = (values row scalars).toOption := by
  induction same with
  | nil => rfl
  | cons first _ inductionHypothesis =>
      simp only [values, List.mapM_cons, Except.toOption_bind, first.value] at inductionHypothesis ⊢
      rw [inductionHypothesis]

namespace Alike

variable {lenient : Prop} {search other : Search} (alike : search.Alike lenient other)

include alike

/-- Searches that come to the same sort in the same directions. -/
theorem directions :
    List.Forall₂ (fun sort otherSort => otherSort.descending = sort.descending)
      search.ordering other.ordering :=
  alike.ordering.imp fun _ _ both => both.2

/-- Searches that come to the same select the same rows. -/
theorem selected_eq :
    other.selected = search.selected := by
  rw [selected, selected, alike.sources]
  exact List.filter_congr fun row _ => alike.holds row

/-- Searches that come to the same have the same results on a row. -/
theorem resultOn_eq :
    other.resultOn = search.resultOn := by
  funext row
  have same : List.Forall₂ (· = ·) (other.results.map (Scalar.cell row))
      (search.results.map (Scalar.cell row)) := by
    rw [List.forall₂_map_left_iff, List.forall₂_map_right_iff]
    exact alike.results.flip.imp fun _ _ scalars => scalars.cell row
  rwa [List.forall₂_eq_eq_eq] at same

/-- Searches that come to the same sort a row by the same cells. -/
theorem key_eq
    (row : JoinedRow) :
    (other.ordering.map fun sort => sort.scalar.cell row) =
      search.ordering.map fun sort => sort.scalar.cell row := by
  have same : List.Forall₂ (· = ·) (other.ordering.map fun sort => sort.scalar.cell row)
      (search.ordering.map fun sort => sort.scalar.cell row) := by
    rw [List.forall₂_map_left_iff, List.forall₂_map_right_iff]
    exact alike.ordering.flip.imp fun _ _ sorts => sorts.1.cell row
  rwa [List.forall₂_eq_eq_eq] at same

/-- Searches that come to the same leave the same results behind. -/
theorem isBehind_eq :
    isBehind other = isBehind search := by
  funext kept key
  rw [isBehind, isBehind, alike.limit, compareKeys_congr alike.directions]

/-- Searches that come to the same want the same results. -/
theorem wanted_eq :
    wanted other = wanted search := by
  funext ranked
  rw [wanted, wanted, alike.limit]

/-- Searches that come to the same keep the same results. -/
theorem keep_eq :
    other.keep = search.keep := by
  funext kept row
  simp only [keep, alike.key_eq, alike.isBehind_eq, alike.wanted_eq, alike.resultOn_eq,
    insertRanked_congr alike.directions]

/-- Searches that come to the same have the same answer. -/
theorem answer_eq :
    other.answer = search.answer := by
  unfold answer
  rw [alike.limit, alike.selected_eq, alike.resultOn_eq, alike.keep_eq]
  have ordering := alike.ordering
  cases isOrdering : search.ordering with
  | nil =>
      rw [isOrdering] at ordering
      rw [List.forall₂_nil_left_iff.mp ordering]
  | cons first rest =>
      rw [isOrdering] at ordering
      obtain ⟨_, _, _, _, isOther⟩ := List.forall₂_cons_left_iff.mp ordering
      rw [isOther]

section Strict

variable (strict : ¬lenient)

include strict

/-- Searches that come to the same have the same first rows, if they have any. -/
theorem firstRows_toOption
    (limit? : Option Nat)
    (rows : List JoinedRow) :
    (firstRows other limit? rows).toOption = (firstRows search limit? rows).toOption := by
  have conditions := alike.conditions strict
  have results := alike.results.imp fun _ _ scalars => scalars.evaluation strict
  induction rows generalizing limit? with
  | nil =>
      match limit? with
      | none => rfl
      | some 0 => rfl
      | some (_ + 1) => rfl
  | cons row rows inductionHypothesis =>
      have step : ∀ limit? : Option Nat,
          ((do
            if ← allHold row other.conditions then
              let cells ← values row other.results
              let rest ← firstRows other (limit?.map (· - 1)) rows
              return cells :: rest
            else
              firstRows other limit? rows) : Except StoreError (List (List Cell))).toOption =
          ((do
            if ← allHold row search.conditions then
              let cells ← values row search.results
              let rest ← firstRows search (limit?.map (· - 1)) rows
              return cells :: rest
            else
              firstRows search limit? rows) : Except StoreError (List (List Cell))).toOption := by
        intro limit?
        rw [Except.toOption_bind, Except.toOption_bind, allHold_toOption conditions]
        refine Option.bind_congr fun isSelected _ => ?_
        cases isSelected with
        | true =>
            simp only [↓reduceIte, Except.toOption_bind, values_toOption results,
              inductionHypothesis]
        | false => exact inductionHypothesis limit?
      match limit? with
      | none => exact step none
      | some 0 => rfl
      | some (limit + 1) => exact step (some (limit + 1))

/-- Searches that come to the same rank the same rows, if they rank any. -/
theorem rankedRows_toOption
    (kept : List Ranked)
    (rows : List JoinedRow) :
    (rankedRows other kept rows).toOption = (rankedRows search kept rows).toOption := by
  have conditions := alike.conditions strict
  have results := alike.results.imp fun _ _ scalars => scalars.evaluation strict
  have sorts : List.Forall₂ Scalar.SameEvaluation (search.ordering.map (·.scalar))
      (other.ordering.map (·.scalar)) := by
    rw [List.forall₂_map_left_iff, List.forall₂_map_right_iff]
    exact alike.ordering.imp fun _ _ both => both.1.evaluation strict
  induction rows generalizing kept with
  | nil => rfl
  | cons row rows inductionHypothesis =>
      simp only [rankedRows, Except.toOption_bind, allHold_toOption conditions]
      refine Option.bind_congr fun isSelected _ => ?_
      cases isSelected with
      | true =>
          simp only [↓reduceIte, Except.toOption_bind, values_toOption sorts, alike.isBehind_eq]
          refine Option.bind_congr fun key _ => ?_
          split
          · exact inductionHypothesis kept
          · simp only [Except.toOption_bind, values_toOption results, inductionHypothesis,
              alike.wanted_eq, insertRanked_congr alike.directions]
      | false => exact inductionHypothesis kept

/-- Not taken leniently, the searches succeed alike. -/
theorem rows_toOption :
    other.rows.toOption = search.rows.toOption := by
  have conditions := filter_isConstant (alike.conditions strict)
  unfold rows
  rw [alike.limit, alike.sources]
  split
  · rfl
  split
  · rfl
  rw [Except.toOption_bind, Except.toOption_bind, allHold_toOption conditions]
  refine Option.bind_congr fun isSelected _ => ?_
  cases isSelected with
  | true =>
      have ordering := alike.ordering
      simp only [↓reduceIte]
      cases isOrdering : search.ordering with
      | nil =>
          rw [isOrdering] at ordering
          rw [List.forall₂_nil_left_iff.mp ordering]
          exact alike.firstRows_toOption strict _ _
      | cons first rest =>
          rw [isOrdering] at ordering
          obtain ⟨_, _, _, _, isOther⟩ := List.forall₂_cons_left_iff.mp ordering
          simp only [isOther, Except.toOption_bind, alike.rankedRows_toOption strict]
  | false => rfl

end Strict

/-- The results are the same if there are any, and there are unless this is taken leniently. -/
theorem rows :
    Except.Related lenient (fun results otherResults => otherResults = results)
      search.rows other.rows where
  results := by
    intro results otherResults succeeds otherSucceeds
    rw [eq_answer_of_rows succeeds, eq_answer_of_rows otherSucceeds, alike.answer_eq]
  success := by
    intro strict
    rw [Except.exists_eq_ok_iff, Except.exists_eq_ok_iff, alike.rows_toOption strict]

end Alike

end FullTextQuery.Store.Search
