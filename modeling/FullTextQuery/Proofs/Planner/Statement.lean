import FullTextQuery.Proofs.Planner.Draft

namespace FullTextQuery

/-!
# What the statement of a draft reads

The statement of a draft has no members left.  It uses the parameters that the
query uses, and its membership tests are those of the search calls in the
filters.
-/

namespace Statement

/-- The membership tests in all expressions of a statement. -/
def memberships
    (s : Statement) :
    List Membership :=
  s.expressions.flatMap RelExpr.memberships

/-- The predicate has no membership tests but those of the statement, in their order. -/
theorem memberships_predicate_sublist
    (s : Statement) :
    (s.predicate?.toList.flatMap RelExpr.memberships).Sublist s.memberships := by
  simp only [memberships, expressions, List.flatMap_append]
  refine .trans ?_ (List.sublist_append_left _ _)
  exact List.sublist_append_right _ _

end Statement

namespace Planner

variable {model : Model} {query : Query} {draft : Draft}

/-- What is collected from both sides of a conjunction is collected from all that it joins. -/
theorem flatMap_conjunction?
    {collect : RelExpr → List α}
    (both : ∀ left right, collect (.and left right) = collect left ++ collect right)
    (es : List RelExpr) :
    (conjunction? es).toList.flatMap collect = es.flatMap collect := by
  have grouped : ∀ (es : List RelExpr) (first : RelExpr),
      collect (es.foldl .and first) = collect first ++ es.flatMap collect := by
    intro es
    induction es with
    | nil => simp
    | cons e rest inductionHypothesis =>
        intro first
        rw [List.foldl_cons, inductionHypothesis, both, List.flatMap_cons, List.append_assoc]
  cases es with
  | nil => rfl
  | cons e rest => simpa [conjunction?] using grouped rest e

/-- A literal in a conjunction of filters is in one of them. -/
theorem exists_of_literal_mem_foldl_and
    {value : Value}
    {first : Expr}
    {others : List Expr}
    (isNode : .literal value ∈ (others.foldl Expr.and first).nodes) :
    ∃ filter ∈ first :: others, .literal value ∈ filter.nodes := by
  induction others generalizing first with
  | nil => exact ⟨first, List.mem_cons_self, isNode⟩
  | cons other rest inductionHypothesis =>
      obtain ⟨filter, isFilter, inFilter⟩ := inductionHypothesis isNode
      rcases List.mem_cons.mp isFilter with rfl | isLater
      · simp only [Expr.nodes_and, List.mem_cons, reduceCtorEq, List.mem_append, false_or]
          at inFilter
        rcases inFilter with inFirst | inOther
        · exact ⟨first, by simp, inFirst⟩
        · exact ⟨other, by simp, inOther⟩
      · exact ⟨filter, by simp [isLater], inFilter⟩

/-- The image of a conjunction is the conjunction of the images. -/
theorem image?_foldl_and
    {first : Expr}
    {others : List Expr}
    {image : RelExpr}
    {images : List RelExpr}
    (imaged : first.image? model query = some image)
    (othersImaged : List.Forall₂ (fun e result => e.image? model query = some result)
      others images) :
    (others.foldl .and first).image? model query = some (images.foldl .and image) := by
  induction othersImaged generalizing first image with
  | nil => exact imaged
  | cons otherImaged _ inductionHypothesis =>
      exact inductionHypothesis (Expr.image?_and_eq_some.mpr ⟨_, _, imaged, otherImaged, rfl⟩)

section Projection

/-- Lowered columns are behind the earlier ones, one for each projected expression. -/
theorem ColumnsLowered.exists_append
    {scope : Scope}
    {earlier columns : List LoweredColumn}
    {es : List Expr}
    (lowered : ColumnsLowered scope earlier es columns) :
    ∃ new, columns = earlier ++ new ∧
      List.Forall₂ (fun e column => e.lowered? scope = some column.expr) es new := by
  induction es generalizing earlier with
  | nil =>
      exact ⟨[], by simpa [ColumnsLowered] using lowered, .nil⟩
  | cons e rest inductionHypothesis =>
      obtain ⟨column, expr, _, isLowered, restLowered⟩ := lowered
      obtain ⟨new, rfl, related⟩ := inductionHypothesis restLowered
      exact ⟨⟨expr, column⟩ :: new, by simp, .cons isLowered related⟩

/-- The output columns are the images of the projected expressions. -/
theorem ProjectionDrafted.outputs
    {outputs : List OutputColumn}
    {columns : List ResultColumn}
    (known : ∀ source ∈ query.sources, (model.entity? source.entity).isSome)
    (drafted : ProjectionDrafted model query outputs columns) :
    List.Forall₂ (fun e output => e.image? model query = some output.expr)
      (query.projected model) outputs := by
  obtain ⟨lowered, projection, resolved, _⟩ := drafted
  have exprsLowered : List.Forall₂ (fun e column =>
      e.lowered? (Scope.declared model query) = some column.expr)
      (query.projected model) lowered := by
    unfold ProjectionLowered at projection
    unfold Query.projected
    cases isProjection : query.projection with
    | nil =>
        rw [isProjection] at projection
        obtain ⟨root, inScope, rfl⟩ := projection
        have inScopeThere := inScope
        rw [Scope.get?_declared known] at inScope
        obtain ⟨entity, ranges, rfl⟩ := Option.map_eq_some_iff.mp inScope
        obtain ⟨rootEntity, isRoot⟩ := Option.isSome_iff_exists.mp
          (known query.source (by simp [Query.sources]))
        obtain rfl : rootEntity = entity := by
          simpa [Query.entityOf?, Query.sources, isRoot] using ranges
        simp only [isRoot, everyProperty, List.forall₂_map_left_iff, List.forall₂_map_right_iff,
          List.forall₂_same]
        intro property _
        simp [Expr.lowered?, inScopeThere]
    | cons e rest =>
        rw [isProjection] at projection
        obtain ⟨new, rfl, related⟩ := ColumnsLowered.exists_append projection
        exact related
  refine (List.forall₂_comp.mp ⟨lowered, exprsLowered, resolved⟩).imp ?_
  rintro e output ⟨column, isLowered, isResolved⟩
  exact (Expr.composed known e).mpr ⟨_, isLowered, isResolved.expr⟩

/-- The output columns have the names of the columns of the records. -/
theorem ProjectionDrafted.names
    {outputs : List OutputColumn}
    {columns : List ResultColumn}
    (drafted : ProjectionDrafted model query outputs columns) :
    outputs.map (·.name) = columns.map (·.name) := by
  obtain ⟨lowered, projection, resolved, rfl⟩ := drafted
  clear projection
  induction resolved with
  | nil => rfl
  | cons columnResolved _ inductionHypothesis =>
      simp only [List.map_cons, columnResolved.name, inductionHypothesis]

/-- The lowered columns are decided by the expressions. -/
theorem ColumnsLowered.unique
    {scope : Scope}
    {earlier columns others : List LoweredColumn}
    {es : List Expr}
    (lowered : ColumnsLowered scope earlier es columns)
    (otherLowered : ColumnsLowered scope earlier es others) :
    others = columns := by
  induction es generalizing earlier with
  | nil => exact otherLowered.trans lowered.symm
  | cons e rest inductionHypothesis =>
      obtain ⟨column, expr, isColumn, isLowered, restLowered⟩ := lowered
      obtain ⟨other, otherExpr, isOther, isOtherLowered, otherRest⟩ := otherLowered
      obtain rfl := Except.ok.inj (isColumn.symm.trans isOther)
      obtain rfl := Option.some.inj (isLowered.symm.trans isOtherLowered)
      exact inductionHypothesis restLowered otherRest

/-- The columns of the records are decided by the projection. -/
theorem ProjectionDrafted.unique
    {outputs otherOutputs : List OutputColumn}
    {columns otherColumns : List ResultColumn}
    (drafted : ProjectionDrafted model query outputs columns)
    (otherDrafted : ProjectionDrafted model query otherOutputs otherColumns) :
    otherColumns = columns := by
  obtain ⟨lowered, projection, _, rfl⟩ := drafted
  obtain ⟨other, otherProjection, _, rfl⟩ := otherDrafted
  unfold ProjectionLowered at projection otherProjection
  cases isProjection : query.projection with
  | nil =>
      rw [isProjection] at projection otherProjection
      obtain ⟨root, inScope, rfl⟩ := projection
      obtain ⟨otherRoot, otherInScope, rfl⟩ := otherProjection
      obtain rfl := Option.some.inj (inScope.symm.trans otherInScope)
      rfl
  | cons e rest =>
      rw [isProjection] at projection otherProjection
      rw [ColumnsLowered.unique projection otherProjection]

end Projection

namespace Drafted

variable (drafted : Drafted model query draft)

include drafted

/-- The filters' images. -/
theorem filterImages :
    List.Forall₂ (fun predicate image => predicate.image? model query = some image)
      query.filters (draft.filters.map (·.lowered)) :=
  List.forall₂_map_right_iff.mpr (drafted.filters.imp fun _ _ filter => filter.image)

/-- What is collected from the images of expressions is collected from the statement. -/
theorem flatMap_expressions
    (collect : RelExpr → List α)
    (collectFrom : Expr → List β)
    {relation : β → α → Prop}
    (each : ∀ {e image}, e.image? model query = some image →
      List.Forall₂ relation (collectFrom e) (collect image))
    (both : ∀ left right, collect (.and left right) = collect left ++ collect right) :
    List.Forall₂ relation
      ((query.projected model).flatMap collectFrom
        ++ query.joins.flatMap (fun join => collectFrom (.compare join.left .eq join.right))
        ++ query.filters.flatMap collectFrom
        ++ query.ordering.flatMap fun key => collectFrom key.expr)
      (draft.statement.expressions.flatMap collect) := by
  have projectionCollected := List.rel_flatMap (drafted.projection.outputs drafted.known)
    (fun _ _ imaged => each imaged)
  have joinsCollected := List.rel_flatMap drafted.joins (fun _ _ joined => each joined.on)
  have filtersCollected := List.rel_flatMap drafted.filterImages (fun _ _ imaged => each imaged)
  have orderingCollected := List.rel_flatMap drafted.ordering (fun _ _ key => each key.expr)
  simp only [Statement.expressions, List.flatMap_append, drafted.predicate,
    flatMap_conjunction? both, List.flatMap_map] at filtersCollected ⊢
  exact List.rel_append (List.rel_append (List.rel_append projectionCollected joinsCollected)
    filtersCollected) orderingCollected

/-- Every expression of the statement is the image of an expression. -/
theorem exists_preimage :
    ∀ image ∈ draft.statement.expressions, ∃ e : Expr, e.image? model query = some image := by
  simp only [Statement.expressions, List.forall_mem_append, List.forall_mem_map]
  refine ⟨⟨⟨?projection, ?joins⟩, ?predicate⟩, ?ordering⟩
  case projection =>
    intro output isOutput
    obtain ⟨e, _, imaged⟩ :=
      List.exists_of_forall₂_right (drafted.projection.outputs drafted.known) isOutput
    exact ⟨e, imaged⟩
  case joins =>
    intro joined isJoined
    obtain ⟨join, _, joinDrafted⟩ := List.exists_of_forall₂_right drafted.joins isJoined
    exact ⟨_, joinDrafted.on⟩
  case predicate =>
    have related := drafted.filterImages
    intro image isPredicate
    rw [Option.mem_toList, drafted.predicate] at isPredicate
    generalize query.filters = filters, draft.filters.map (·.lowered) = images
      at related isPredicate
    cases related with
    | nil => simp [conjunction?] at isPredicate
    | cons imaged othersImaged =>
        obtain rfl := Option.some.inj isPredicate
        exact ⟨_, image?_foldl_and imaged othersImaged⟩
  case ordering =>
    intro term isTerm
    obtain ⟨key, _, keyDrafted⟩ := List.exists_of_forall₂_right drafted.ordering isTerm
    exact ⟨key.expr, keyDrafted.expr⟩

/-- The statement has no members. -/
theorem resolved :
    ∀ e ∈ draft.statement.expressions, e.Resolved := by
  intro image isPart
  obtain ⟨_, imaged⟩ := drafted.exists_preimage image isPart
  exact Expr.resolved_of_image? imaged

/-- The statement uses the parameters that parts of the query use. -/
theorem mem_uses
    {parameter : StatementParameter} :
    parameter ∈ draft.statement.uses ↔ ∃ node ∈ query.nodes, node.use? = some parameter := by
  have collected : List.Forall₂ (· = ·) _ draft.statement.uses :=
    drafted.flatMap_expressions RelExpr.uses (fun e => e.nodes.filterMap Expr.use?)
      (fun imaged => by rw [Expr.uses_of_image? imaged, List.forall₂_eq_eq_eq])
      (fun _ _ => rfl)
  have projectedUses : (query.projected model).flatMap (fun e => e.nodes.filterMap Expr.use?) =
      query.projection.flatMap fun e => e.nodes.filterMap Expr.use? := by
    unfold Query.projected
    split
    · rename_i isEmpty
      rw [isEmpty]
      split <;> simp [Expr.nodes, Expr.use?, Expr.searchCall?, List.flatMap_map]
    · rfl
  have joinUses : query.joins.flatMap (fun join =>
        (Expr.compare join.left .eq join.right).nodes.filterMap Expr.use?) =
      (query.joins.flatMap fun join => [join.left, join.right]).flatMap
        fun e => e.nodes.filterMap Expr.use? := by
    have each : ∀ join : Join,
        (Expr.compare join.left .eq join.right).nodes.filterMap Expr.use? =
          join.left.nodes.filterMap Expr.use? ++ join.right.nodes.filterMap Expr.use? := by
      intro join
      rw [Expr.nodes, List.filterMap_cons_none rfl, List.filterMap_append]
    simp [List.flatMap_assoc, each]
  rw [List.forall₂_eq_eq_eq] at collected
  have nodeUses : (∃ node ∈ query.nodes, node.use? = some parameter) ↔
      parameter ∈ query.expressions.flatMap fun e => e.nodes.filterMap Expr.use? := by
    simp only [Query.nodes, List.mem_flatMap, List.mem_filterMap]
    grind
  rw [← collected, nodeUses, projectedUses, joinUses, Query.expressions]
  simp only [List.flatMap_append, List.mem_append, List.flatMap_map]
  tauto

/-- No projected expression has a search call. -/
theorem searchCalls_projected :
    ∀ e ∈ query.projected model, e.searchCalls = [] := by
  have noOthers := drafted.noOthers
  simp only [Query.otherCalls, List.append_eq_nil_iff, List.flatMap_eq_nil_iff] at noOthers
  unfold Query.projected
  split
  · split <;> simp
  · exact noOthers.1.2

/-- No equality of a join has a search call. -/
theorem searchCalls_join :
    ∀ join ∈ query.joins, (Expr.compare join.left .eq join.right).searchCalls = [] := by
  have noOthers := drafted.noOthers
  simp only [Query.otherCalls, List.append_eq_nil_iff, List.flatMap_eq_nil_iff] at noOthers
  intro join isJoin
  rw [Expr.searchCalls_compare]
  exact List.append_eq_nil_iff.mpr (noOthers.1.1 join isJoin)

/-- The membership tests of the statement are those of the search calls in the filters. -/
theorem memberships :
    List.Forall₂ (fun searched test => Expr.keyTest? model query searched = some test)
      query.filterCalls draft.statement.memberships := by
  have collected := drafted.flatMap_expressions RelExpr.memberships Expr.searchCalls
    Expr.memberships_of_image? (fun _ _ => rfl)
  have noOthers := drafted.noOthers
  simp only [Query.otherCalls, List.append_eq_nil_iff] at noOthers
  have noProjected := List.flatMap_eq_nil_iff.mpr drafted.searchCalls_projected
  have noJoins := List.flatMap_eq_nil_iff.mpr drafted.searchCalls_join
  simpa [noProjected, noJoins, noOthers, Query.filterCalls, Statement.memberships]
    using collected

end Drafted

end Planner

end FullTextQuery
