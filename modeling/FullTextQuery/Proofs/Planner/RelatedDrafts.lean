import FullTextQuery.Proofs.Planner.Plan
import FullTextQuery.Proofs.Query.Related

namespace FullTextQuery

/-!
# Drafts of related queries

If the images of related expressions are related, a query of the same shape as
one that has a draft has a draft too: its statement is related part by part, and
its records have the same columns.
-/

namespace Expr

/-- How a relation between expressions carries over to a relation between images. -/
structure Carries
    (model : Model)
    (query : Query)
    (relation : Expr → Expr → Prop)
    (images : RelExpr → RelExpr → Prop) :
    Prop where
  image : ∀ {e other : Expr} {image : RelExpr}, relation e other →
    e.image? model query = some image →
    ∃ otherImage, other.image? model query = some otherImage ∧ images image otherImage
  named : ∀ {e other : Expr}, relation e other → e.NamedAlike other
  column : ∀ tableAlias name, images (.column tableAlias name) (.column tableAlias name)

end Expr

namespace Statement

/-- Two statements over the same tables with related expressions. -/
structure Related
    (relation : RelExpr → RelExpr → Prop)
    (s other : Statement) :
    Prop where
  projection : List.Forall₂ (fun column otherColumn =>
      relation column.expr otherColumn.expr ∧ otherColumn.name = column.name)
    s.projection other.projection
  source : other.source = s.source
  joins : List.Forall₂ (fun joined otherJoined =>
      otherJoined.table = joined.table ∧ relation joined.on otherJoined.on)
    s.joins other.joins
  predicate : List.Forall₂ relation s.predicate?.toList other.predicate?.toList
  ordering : List.Forall₂ (fun term otherTerm =>
      relation term.expr otherTerm.expr ∧ otherTerm.descending = term.descending)
    s.ordering other.ordering
  limit : other.limit? = s.limit?

/-- Statements with the same expressions in the same places are the same. -/
theorem Related.eq
    {s other : Statement}
    (related : s.Related (fun e f => f = e) other) :
    other = s := by
  have same : ∀ {α : Type} {items others : List α},
      List.Forall₂ (fun item other => other = item) items others → others = items := by
    intro α items others pointwise
    rw [← List.forall₂_eq_eq_eq]
    exact pointwise.flip
  have projection := same (related.projection.imp fun column other both => by
    cases column; cases other; simp_all)
  have joins := same (related.joins.imp fun joined other both => by
    cases joined; cases other; simp_all)
  have ordering := same (related.ordering.imp fun term other both => by
    cases term; cases other; simp_all)
  have predicate : other.predicate? = s.predicate? := by
    have same := same related.predicate
    cases isThere : s.predicate? <;> cases isOther : other.predicate? <;> simp_all
  have source := related.source
  have limit := related.limit
  cases s
  cases other
  simp_all

end Statement

namespace Planner

open PlannedSearches

variable
  {model : Model} {query other : Query} {draft : Draft}
  {relation : Expr → Expr → Prop} {images : RelExpr → RelExpr → Prop}

/-- Behind columns of the same names, a relative of an expression gets the same name and kind. -/
theorem columnFor_congr
    {scope : Scope}
    {e other : Expr}
    {earlier otherEarlier : List LoweredColumn}
    (sameColumns : otherEarlier.map (·.column) = earlier.map (·.column))
    (named : e.NamedAlike other) :
    columnFor scope otherEarlier other = columnFor scope earlier e := by
  have sameLength : otherEarlier.length = earlier.length := by
    simpa using congrArg List.length sameColumns
  have sameTaken : ∀ name : String, otherEarlier.any (·.column.name == name) =
      earlier.any (·.column.name == name) := by
    intro name
    have mapped : ∀ columns : List LoweredColumn, columns.any (·.column.name == name) =
        (columns.map (·.column)).any (·.name == name) := by
      intro columns
      rw [List.any_map]
      rfl
    rw [mapped, mapped, sameColumns]
  rcases named with rfl | ⟨notMember, otherNotMember⟩
  · cases other <;> simp only [columnFor, sameLength, sameTaken]
  · cases e <;> first
      | exact absurd rfl (notMember _ _)
      | cases other <;> first
        | exact absurd rfl (otherNotMember _ _)
        | simp only [columnFor, sameLength]

variable
  (known : ∀ source ∈ query.sources, (model.entity? source.entity).isSome)
  (carries : Expr.Carries model query relation images)

include known carries

/-- Relatives of projected expressions get the same columns, with related output expressions. -/
theorem exists_columnsLowered_of_related
    {es others : List Expr}
    (related : List.Forall₂ relation es others)
    {earlier otherEarlier columns : List LoweredColumn}
    {outputs : List OutputColumn}
    (sameColumns : otherEarlier.map (·.column) = earlier.map (·.column))
    (lowered : ColumnsLowered (Scope.declared model query) earlier es (earlier ++ columns))
    (resolved : List.Forall₂ (ColumnResolved (Scope.declared model query)) columns outputs) :
    ∃ otherColumns otherOutputs,
      ColumnsLowered (Scope.declared model query) otherEarlier others
        (otherEarlier ++ otherColumns) ∧
      List.Forall₂ (ColumnResolved (Scope.declared model query)) otherColumns otherOutputs ∧
      otherColumns.map (·.column) = columns.map (·.column) ∧
      List.Forall₂ (fun output otherOutput =>
        images output.expr otherOutput.expr ∧ otherOutput.name = output.name)
        outputs otherOutputs := by
  induction related generalizing earlier otherEarlier columns outputs with
  | nil =>
      obtain rfl : columns = [] := by simpa [ColumnsLowered] using lowered
      obtain rfl := List.forall₂_nil_left_iff.mp resolved
      exact ⟨[], [], by simp [ColumnsLowered], .nil, rfl, .nil⟩
  | @cons e other _ _ firstRelated _ inductionHypothesis =>
      obtain ⟨column, expr, isColumn, isLowered, restLowered⟩ := lowered
      obtain ⟨new, shape, _⟩ := ColumnsLowered.exists_append restLowered
      rw [List.append_assoc, List.singleton_append] at shape
      obtain rfl := List.append_cancel_left shape
      obtain ⟨output, restOutputs, firstResolved, restResolved, rfl⟩ :=
        List.forall₂_cons_left_iff.mp resolved
      obtain ⟨otherImage, otherImaged, imagesRelated⟩ := carries.image firstRelated
        ((Expr.composed known e).mpr ⟨expr, isLowered, firstResolved.expr⟩)
      obtain ⟨otherExpr, otherLowered, otherResolved⟩ :=
        (Expr.composed known other).mp otherImaged
      have stillSame :
          (otherEarlier ++ [(⟨otherExpr, column⟩ : LoweredColumn)]).map (·.column) =
            (earlier ++ [(⟨expr, column⟩ : LoweredColumn)]).map (·.column) := by
        simp [sameColumns]
      obtain ⟨others, otherOutputs, restOtherLowered, restOtherResolved, restColumns,
        restRelated⟩ := inductionHypothesis stillSame (by simpa using restLowered) restResolved
      refine ⟨⟨otherExpr, column⟩ :: others, ⟨otherImage, column.name⟩ :: otherOutputs,
        ⟨column, otherExpr, ?_, otherLowered, by simpa using restOtherLowered⟩,
        .cons ⟨otherResolved, rfl⟩ restOtherResolved, by simp [restColumns],
        .cons ⟨imagesRelated, firstResolved.name.symm⟩ restRelated⟩
      rw [columnFor_congr sameColumns (carries.named firstRelated), isColumn]

/-- A projection of related expressions has the same columns and related outputs. -/
theorem ProjectionDrafted.exists_related
    (related : query.Related relation other)
    {outputs : List OutputColumn}
    {columns : List ResultColumn}
    (drafted : ProjectionDrafted model query outputs columns) :
    ∃ otherOutputs, ProjectionDrafted model other otherOutputs columns ∧
      List.Forall₂ (fun output otherOutput =>
        images output.expr otherOutput.expr ∧ otherOutput.name = output.name)
        outputs otherOutputs := by
  have sameScope : Scope.declared model other = Scope.declared model query := by
    rw [Scope.declared, Scope.declared, related.sources]
  obtain ⟨lowered, projection, resolved, rfl⟩ := drafted
  have projectionRelated := related.projection
  unfold ProjectionLowered at projection
  unfold ProjectionDrafted ProjectionLowered
  rw [sameScope, related.source]
  cases isProjection : query.projection with
  | nil =>
      rw [isProjection] at projection projectionRelated
      rw [List.forall₂_nil_left_iff.mp projectionRelated]
      obtain ⟨root, inScope, rfl⟩ := projection
      refine ⟨outputs, ⟨_, ⟨root, inScope, rfl⟩, resolved, rfl⟩, ?_⟩
      refine List.forall₂_same.mpr fun output isOutput => ⟨?_, rfl⟩
      obtain ⟨column, isColumn, columnResolved⟩ :=
        List.exists_of_forall₂_right resolved isOutput
      obtain ⟨property, _, rfl⟩ := List.mem_map.mp isColumn
      have isResolved := columnResolved.expr
      simp only [RelExpr.resolved?, Option.bind_eq_bind, Option.bind_eq_some_iff,
        Option.pure_def, Option.some.injEq] at isResolved
      obtain ⟨_, _, declared, _, same⟩ := isResolved
      rw [← same]
      exact carries.column _ _
  | cons e rest =>
      rw [isProjection] at projection projectionRelated
      obtain ⟨first, others, _, _, isOther⟩ := List.forall₂_cons_left_iff.mp projectionRelated
      rw [isOther] at projectionRelated ⊢
      obtain ⟨otherColumns, otherOutputs, otherLowered, otherResolved, sameColumns,
        outputsRelated⟩ := exists_columnsLowered_of_related known carries projectionRelated
          (rfl : ([] : List LoweredColumn).map (·.column) = []) projection resolved
      exact ⟨otherOutputs, ⟨otherColumns, otherLowered, otherResolved, sameColumns.symm⟩,
        outputsRelated⟩

omit known carries in
/-- The conjunction of related images is related if this is known of two. -/
theorem conjunction?_related
    (and : ∀ {left right otherLeft otherRight : RelExpr}, images left otherLeft →
      images right otherRight → images (.and left right) (.and otherLeft otherRight))
    {es others : List RelExpr}
    (related : List.Forall₂ images es others) :
    List.Forall₂ images (conjunction? es).toList (conjunction? others).toList := by
  have grouped : ∀ {es others : List RelExpr} {first other : RelExpr}, images first other →
      List.Forall₂ images es others → images (es.foldl .and first) (others.foldl .and other) := by
    intro es others first other firstRelated restRelated
    induction restRelated generalizing first other with
    | nil => exact firstRelated
    | cons nextRelated _ inductionHypothesis =>
        exact inductionHypothesis (and firstRelated nextRelated)
  cases related with
  | nil => exact .nil
  | cons firstRelated restRelated => exact .cons (grouped firstRelated restRelated) .nil

omit known in
/-- A query of the same shape has a related draft, if its search calls can be put on record. -/
theorem Drafted.exists_related
    (drafted : Drafted model query draft)
    (related : query.Related relation other)
    (noOthers : other.otherCalls = [])
    {searches : PlannedSearches}
    (recorded : after? (Scope.declared model query) other.filterCalls {} = some searches)
    (conjoined : ∀ {others : List RelExpr},
      List.Forall₂ images (draft.filters.map (·.lowered)) others →
      List.Forall₂ images (conjunction? (draft.filters.map (·.lowered))).toList
        (conjunction? others).toList) :
    ∃ otherDraft, Drafted model other otherDraft ∧
      draft.statement.Related images otherDraft.statement ∧
      otherDraft.columns = draft.columns ∧ otherDraft.searches = searches.recorded := by
  have sameScope : Scope.declared model other = Scope.declared model query := by
    rw [Scope.declared, Scope.declared, related.sources]
  have sameImage : ∀ e : Expr, e.image? model other = e.image? model query :=
    Expr.image?_congr related.sources
  have filtersDrafted := drafted.filters
  obtain ⟨filters, otherFiltersDrafted, filtersRelated⟩ : ∃ filters,
      List.Forall₂ (FilterDrafted model other) other.filters filters ∧
      List.Forall₂ (fun filter otherFilter => images filter.lowered otherFilter.lowered)
        draft.filters filters := by
    refine List.exists_forall₂_square ?_ related.filters drafted.filters
    intro predicate otherPredicate filter predicatesRelated filterDrafted
    obtain ⟨image, imaged, imagesRelated⟩ :=
      carries.image predicatesRelated filterDrafted.image
    exact ⟨⟨otherPredicate, image, _⟩, ⟨rfl, (sameImage _).trans imaged, rfl⟩, imagesRelated⟩
  obtain ⟨joins, joinsDrafted, joinsRelated⟩ : ∃ joins,
      List.Forall₂ (JoinDrafted model other) other.joins joins ∧
      List.Forall₂ (fun joined otherJoined =>
        otherJoined.table = joined.table ∧ images joined.on otherJoined.on)
        draft.statement.joins joins := by
    refine List.exists_forall₂_square ?_ related.joins drafted.joins
    rintro join otherJoin joined ⟨sameSource, equality⟩ joinDrafted
    obtain ⟨image, imaged, imagesRelated⟩ := carries.image equality joinDrafted.on
    exact ⟨⟨joined.table, image⟩,
      ⟨sameSource ▸ joinDrafted.table, (sameImage _).trans imaged⟩, rfl, imagesRelated⟩
  obtain ⟨terms, orderingDrafted, orderingRelated⟩ : ∃ terms,
      List.Forall₂ (SortKeyDrafted model other) other.ordering terms ∧
      List.Forall₂ (fun term otherTerm =>
        images term.expr otherTerm.expr ∧ otherTerm.descending = term.descending)
        draft.statement.ordering terms := by
    refine List.exists_forall₂_square ?_ related.ordering drafted.ordering
    rintro key otherKey term ⟨keysRelated, sameDirection⟩ keyDrafted
    obtain ⟨image, imaged, imagesRelated⟩ := carries.image keysRelated keyDrafted.expr
    exact ⟨⟨image, term.descending⟩, ⟨(sameImage _).trans imaged,
      keyDrafted.descending.trans sameDirection.symm⟩, imagesRelated, rfl⟩
  obtain ⟨outputs, projectionDrafted, outputsRelated⟩ :=
    ProjectionDrafted.exists_related drafted.known carries related drafted.projection
  refine ⟨{
    statement := {
      projection := outputs
      source := draft.statement.source
      joins
      predicate? := conjunction? (filters.map (·.lowered))
      ordering := terms
      limit? := draft.statement.limit? }
    filters
    columns := draft.columns
    searches := searches.recorded }, ?_, ?_, rfl, rfl⟩
  · exact {
      known := related.sources ▸ drafted.known
      distinct := related.sources ▸ drafted.distinct
      filters := otherFiltersDrafted
      joins := joinsDrafted
      projection := projectionDrafted
      ordering := orderingDrafted
      source := by rw [related.source]; exact drafted.source
      predicate := rfl
      limit := drafted.limit.trans related.limit.symm
      noOthers := noOthers
      searches := ⟨searches, by rw [sameScope]; exact recorded, rfl⟩ }
  · refine ⟨outputsRelated, rfl, joinsRelated, ?_, orderingRelated, rfl⟩
    rw [drafted.predicate]
    refine conjoined ?_
    rwa [List.forall₂_map_left_iff, List.forall₂_map_right_iff]

end Planner

end FullTextQuery
