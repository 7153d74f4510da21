import FullTextQuery.Proofs.Query.Scope
import FullTextQuery.Proofs.Relational.Image

namespace FullTextQuery

/-!
# Queries of the same shape

Two queries over the same sources whose expressions are related one by one.  The
sides of a join are taken together, as the equality that they stand for.  The
item variables of such queries range over the same entities, so an expression
has the same image over both.
-/

namespace Query

/-- Two queries of the same shape with related expressions. -/
structure Related
    (relation : Expr → Expr → Prop)
    (query other : Query) :
    Prop where
  source : other.source = query.source
  joins : List.Forall₂ (fun join otherJoin =>
      otherJoin.source = join.source ∧
        relation (.compare join.left .eq join.right) (.compare otherJoin.left .eq otherJoin.right))
    query.joins other.joins
  filters : List.Forall₂ relation query.filters other.filters
  projection : List.Forall₂ relation query.projection other.projection
  ordering : List.Forall₂ (fun key otherKey =>
      relation key.expr otherKey.expr ∧ otherKey.descending = key.descending)
    query.ordering other.ordering
  limit : other.limit? = query.limit?

variable {model : Model} {query other : Query} {relation : Expr → Expr → Prop}

/-- Queries of the same shape have the same sources. -/
theorem Related.sources
    (related : query.Related relation other) :
    other.sources = query.sources := by
  have joined : List.Forall₂ (· = ·) (other.joins.map (·.source)) (query.joins.map (·.source)) := by
    rw [List.forall₂_map_left_iff, List.forall₂_map_right_iff]
    exact related.joins.flip.imp fun _ _ same => same.1
  rw [List.forall₂_eq_eq_eq] at joined
  rw [Query.sources, Query.sources, related.source, joined]

/-- If relatives of expressions without search calls have none, there are none outside filters. -/
theorem Related.otherCalls_eq_nil
    (related : query.Related relation other)
    (empty : ∀ {e f : Expr}, relation e f → e.searchCalls = [] → f.searchCalls = [])
    (noOthers : query.otherCalls = []) :
    other.otherCalls = [] := by
  simp only [otherCalls, List.append_eq_nil_iff, List.flatMap_eq_nil_iff] at noOthers ⊢
  obtain ⟨⟨noJoins, noProjection⟩, noOrdering⟩ := noOthers
  refine ⟨⟨fun join isJoin => ?_, fun e isProjected => ?_⟩, fun key isKey => ?_⟩
  · obtain ⟨earlier, isEarlier, _, equality⟩ := List.exists_of_forall₂_right related.joins isJoin
    have := empty equality (by simpa using noJoins earlier isEarlier)
    simpa using this
  · obtain ⟨earlier, isEarlier, same⟩ :=
      List.exists_of_forall₂_right related.projection isProjected
    exact empty same (noProjection earlier isEarlier)
  · obtain ⟨earlier, isEarlier, same, _⟩ := List.exists_of_forall₂_right related.ordering isKey
    exact empty same (noOrdering earlier isEarlier)

/-- Queries with the same sources have the same entities. -/
theorem entityOf?_congr
    (sameSources : other.sources = query.sources)
    (item : String) :
    other.entityOf? model item = query.entityOf? model item := by
  rw [entityOf?, entityOf?, sameSources]

end Query

namespace Expr

/-- Whether two projected expressions are the same member, or both are none. -/
def NamedAlike
    (e other : Expr) :
    Prop :=
  other = e ∨
    ((∀ item property, e ≠ .member item property) ∧ ∀ item property, other ≠ .member item property)

variable {model : Model} {query other : Query}

/-- An expression has the same image over all queries with the same sources. -/
theorem image?_congr
    (sameSources : other.sources = query.sources)
    (e : Expr) :
    e.image? model other = e.image? model query := by
  have ranges : ∀ item, other.entityOf? model item = query.entityOf? model item :=
    Query.entityOf?_congr sameSources
  induction e with
  | item name => rfl
  | member item property => rw [image?, image?, ranges]
  | literal value => rfl
  | parameter name => rfl
  | compare left op right leftSame rightSame => rw [image?, image?, leftSame, rightSame]
  | and left right leftSame rightSame => rw [image?, image?, leftSame, rightSame]
  | or left right leftSame rightSame => rw [image?, image?, leftSame, rightSame]
  | not operand operandSame => rw [image?, image?, operandSame]
  | call function args argsSame =>
      have argImages : ∀ es : List Expr, (∀ e ∈ es, e.image? model other = e.image? model query) →
          imageAll? model other es = imageAll? model query es := by
        intro es
        induction es with
        | nil => exact fun _ => rfl
        | cons e es inductionHypothesis =>
            intro same
            obtain ⟨first, others⟩ := List.forall_mem_cons.mp same
            rw [imageAll?, imageAll?, first, inductionHypothesis others]
      rw [image?, image?, argImages args argsSame]
      cases (Expr.call function args).searchCall? with
      | none => rfl
      | some searched => simp only [ranges]

end Expr

end FullTextQuery
