import FullTextQuery.Proofs.Store.AlikeTerms

namespace FullTextQuery.Store

/-!
# Selections that come to the same

Selections from the same tables whose terms stand for the same, part by part, are searched
for alike.
-/

variable [NumeralReading]

/-- Two selections, each with what is bound to its parameters, that stand for the same. -/
structure AlikeSelections
    (lenient : Prop)
    (bindings otherBindings : Bindings)
    (selection other : Sql.Selection) :
    Prop where
  results : List.Forall₂ (fun result otherResult =>
      AlikeTerms lenient bindings otherBindings result.term otherResult.term)
    selection.results other.results
  source : other.source = selection.source
  joins : List.Forall₂ (fun join otherJoin => otherJoin.table = join.table ∧
      AlikeTerms lenient bindings otherBindings join.on otherJoin.on)
    selection.joins other.joins
  filter : List.Forall₂ (AlikeTerms lenient bindings otherBindings)
    selection.filter?.toList other.filter?.toList
  ordering : List.Forall₂ (fun sort otherSort =>
      AlikeTerms lenient bindings otherBindings sort.term otherSort.term ∧
        resultPlace? otherSort.term = resultPlace? sort.term ∧
        otherSort.descending = sort.descending)
    selection.ordering other.ordering
  limit : other.limit? = selection.limit?

namespace AlikeSelections

variable {lenient : Prop} {bindings otherBindings : Bindings} {selection other : Sql.Selection}
  (alike : AlikeSelections lenient bindings otherBindings selection other)

include alike

/-- Selections that come to the same have the same tables. -/
theorem tables_eq :
    other.tables = selection.tables := by
  have same : List.Forall₂ (· = ·) (other.joins.map (·.table)) (selection.joins.map (·.table)) := by
    rw [List.forall₂_map_left_iff, List.forall₂_map_right_iff]
    exact alike.joins.flip.imp fun _ _ joins => joins.1
  rw [List.forall₂_eq_eq_eq] at same
  rw [Sql.Selection.tables, Sql.Selection.tables, alike.source, same]

/-- Selections that come to the same have terms that do. -/
theorem terms :
    List.Forall₂ (AlikeTerms lenient bindings otherBindings) selection.terms other.terms := by
  refine List.rel_append (List.rel_append (List.rel_append ?_ ?_) alike.filter) ?_ <;>
    rw [List.forall₂_map_left_iff, List.forall₂_map_right_iff]
  · exact alike.results
  · exact alike.joins.imp fun _ _ joins => joins.2
  · exact alike.ordering.imp fun _ _ sorts => sorts.1

/-- Selections that come to the same are as deep. -/
theorem tooDeep_eq :
    (other.terms.any fun term => maxHeight < term.height) =
      selection.terms.any fun term => maxHeight < term.height := by
  have terms := alike.terms
  generalize selection.terms = ours, other.terms = others at terms
  induction terms with
  | nil => rfl
  | cons first _ inductionHypothesis =>
      rw [List.any_cons, List.any_cons, first.height, inductionHypothesis]

/-- Sort terms that stand for the same sort alike. -/
theorem sortScalars
    (sources : List BoundTable)
    {results otherResults : List Scalar}
    (resultsAlike : List.Forall₂ (Scalar.Alike lenient) results otherResults) :
    Except.Related lenient (List.Forall₂ fun sort otherSort =>
        sort.scalar.Alike lenient otherSort.scalar ∧ otherSort.descending = sort.descending)
      (selection.ordering.mapM (Search.sortScalar sources bindings results))
      (other.ordering.mapM (Search.sortScalar sources otherBindings otherResults)) := by
  refine .mapM (alike.ordering.imp ?_)
  rintro sort otherSort ⟨termsAlike, samePlace, sameDirection⟩
  unfold Search.sortScalar
  rw [samePlace]
  cases resultPlace? sort.term with
  | none =>
      exact (termsAlike.resolved sources).bind fun _ _ same => .ok ⟨same, sameDirection⟩
  | some place =>
      by_cases tooSmall : place < 1
      · simp only [tooSmall, ↓reduceIte]
        exact .error
      · simp only [tooSmall, ↓reduceIte]
        have sameLength := resultsAlike.length_eq
        by_cases inside : (place - 1).toNat < results.length
        · rw [List.getElem?_eq_getElem inside, List.getElem?_eq_getElem (sameLength ▸ inside)]
          exact .ok ⟨resultsAlike.get inside (sameLength ▸ inside), sameDirection⟩
        · rw [List.getElem?_eq_none (by omega), List.getElem?_eq_none (by omega)]
          exact .error

/-- Names are found alike, and the searches stand for the same. -/
theorem ofSelection
    (store : Store) :
    Except.Related lenient (Search.Alike lenient)
      (Search.ofSelection store bindings selection)
      (Search.ofSelection store otherBindings other) := by
  simp only [Search.ofSelection, alike.tooDeep_eq, alike.tables_eq]
  split
  · exact .error
  split
  · exact .error
  have sameSources : Except.Related lenient (fun sources otherSources => otherSources = sources)
      (selection.tables.mapM (Search.boundTable store))
      (selection.tables.mapM (Search.boundTable store)) := by
    refine .refl ?_ _
    exact fun _ => rfl
  refine sameSources.bind ?_
  rintro _ sources rfl
  refine (Except.Related.mapM (alike.results.imp fun _ _ terms => terms.resolved sources)).bind ?_
  intro results otherResults resultsAlike
  refine (Except.Related.mapM (alike.filter.imp fun _ _ terms => terms.resolved sources)).bind ?_
  intro filters otherFilters filtersAlike
  refine (Except.Related.mapM (alike.joins.imp fun _ _ joins =>
    joins.2.resolved sources)).bind ?_
  intro joins otherJoins joinsAlike
  refine (alike.sortScalars sources resultsAlike).bind ?_
  intro ordering otherOrdering orderingAlike
  have conditionsAlike := List.rel_append filtersAlike joinsAlike
  refine .ok ⟨rfl, resultsAlike, fun row => ?_, fun strict => ?_, orderingAlike, alike.limit⟩
  · simp only [List.all_flatMap, Scalar.all_conjuncts]
    exact Scalar.Alike.all_isTrue conditionsAlike row
  · exact List.rel_flatMap conditionsAlike fun _ _ conditions => conditions.conjuncts strict

/-- Selections that stand for the same have the same rows. -/
theorem rows
    (store : Store) :
    Except.Related lenient (fun results otherResults => otherResults = results)
      (Search.ofSelection store bindings selection >>= Search.rows)
      (Search.ofSelection store otherBindings other >>= Search.rows) :=
  (alike.ofSelection store).bind fun _ _ searches => searches.rows

end AlikeSelections

end FullTextQuery.Store
