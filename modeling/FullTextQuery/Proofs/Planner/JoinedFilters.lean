import FullTextQuery.Proofs.Planner.Plan
import FullTextQuery.Proofs.Relational.Lowering

/-!
# Filters joined by conjunction

A query whose filters are joined to a single one has the same plan, or is rejected for the
same reason.  Lowering and resolution go through the parts of a conjunction in the order in
which they go through filters, and the searches of a conjunction are those of its parts.
-/

namespace List

/-- All elements as one, grouped to the left; of no elements there is none. -/
def joinedBy
    (join : α → α → α) :
    List α → List α
  | [] => []
  | first :: others => [others.foldl join first]

variable {m : Type → Type} [Monad m] [LawfulMonad m] {α β : Type}
  {join : α → α → α} {f : α → m β} {combine : β → β → β}

/-- What is done for joined elements part by part is done for all of them in their order. -/
theorem apply_foldl_eq_bind
    (byParts : ∀ a b, f (join a b) = do
      let x ← f a
      let y ← f b
      return combine x y)
    (first : α)
    (others : List α) :
    f (others.foldl join first) = do
      let x ← f first
      let xs ← others.mapM f
      return xs.foldl combine x := by
  induction others generalizing first with
  | nil => simp
  | cons next rest inductionHypothesis =>
      rw [foldl_cons, inductionHypothesis, byParts]
      simp [mapM_cons]

/-- Going through the joined elements gives the joined results. -/
theorem mapM_joinedBy
    (byParts : ∀ a b, f (join a b) = do
      let x ← f a
      let y ← f b
      return combine x y)
    (items : List α) :
    (items.joinedBy join).mapM f = joinedBy combine <$> items.mapM f := by
  cases items with
  | nil => simp [joinedBy]
  | cons first others =>
      simp [joinedBy, apply_foldl_eq_bind byParts, mapM_cons]

end List

namespace FullTextQuery

namespace LoweredFilter

/-- Two filters as one, with the searches of both. -/
def join
    (first second : LoweredFilter) :
    LoweredFilter where
  predicate := .and first.predicate second.predicate
  lowered := .and first.lowered second.lowered
  searches := first.searches ++ second.searches

/-- Joined filters have the conjunction of their expressions. -/
theorem lowered_foldl_join
    (first : LoweredFilter)
    (others : List LoweredFilter) :
    (others.foldl join first).lowered = (others.map (·.lowered)).foldl .and first.lowered := by
  induction others generalizing first with
  | nil => rfl
  | cons next rest inductionHypothesis => exact inductionHypothesis (first.join next)

/-- Joined filters have the searches of all of them. -/
theorem searches_foldl_join
    (first : LoweredFilter)
    (others : List LoweredFilter) :
    (others.foldl join first).searches = first.searches ++ others.flatMap (·.searches) := by
  induction others generalizing first with
  | nil => simp
  | cons next rest inductionHypothesis =>
      rw [List.foldl_cons, inductionHypothesis, join, List.flatMap_cons, List.append_assoc]

end LoweredFilter

/-- The query whose one filter joins the filters of a query. -/
def Query.withFiltersJoined
    (query : Query) :
    Query :=
  { query with filters := query.filters.joinedBy .and }

/-- The lowered query whose one filter joins the filters of a lowered query. -/
def LoweredQuery.withFiltersJoined
    (lowered : LoweredQuery) :
    LoweredQuery :=
  { lowered with filters := lowered.filters.joinedBy .join }

/-- The draft whose one filter joins the filters of a draft. -/
def Draft.withFiltersJoined
    (draft : Draft) :
    Draft :=
  { draft with filters := draft.filters.joinedBy .join }

namespace Lowering

/-- Lowering items one after the other is a run over the items. -/
theorem sequence_map
    (f : α → Lowering β)
    (items : List α) :
    sequence (items.map f) = items.mapM f := by
  induction items with
  | nil => rfl
  | cons item rest inductionHypothesis =>
      rw [List.map_cons, sequence, inductionHypothesis, List.mapM_cons]

/-- Lowerings that do the same from everywhere are the same. -/
theorem ext_runFrom
    {first second : Lowering α}
    (same : ∀ before, first.runFrom before = second.runFrom before) :
    first = second :=
  funext same

/-- What is made of a lowered value changes nothing that is recorded. -/
theorem runFrom_map
    (f : α → β)
    (lowering : Lowering α)
    (before : PlannedSearches) :
    (f <$> lowering).runFrom before =
      ((lowering.runFrom before).1.map f, (lowering.runFrom before).2) := by
  rw [map_eq_pure_bind, runFrom_bind]
  rcases lowering.runFrom before with ⟨e | a, after⟩ <;> rfl

end Lowering

/-!
## Lowerings only add to the record

With the rule for search calls, what is on record before an expression is lowered stays
there, in front of what the lowering adds, and also if the lowering fails.
-/

namespace Lowering

/-- Whatever record it starts from, a lowering only puts searches behind those on it. -/
def OnlyAdds
    (lowering : Lowering α) :
    Prop :=
  ∀ before, before.recorded <+: (lowering.runFrom before).2.recorded

namespace OnlyAdds

/-- A value that is there already records nothing. -/
theorem pure
    (a : α) :
    OnlyAdds (Pure.pure a : Lowering α) :=
  fun _ => List.prefix_rfl

/-- An error records nothing. -/
theorem throw
    (e : Error) :
    OnlyAdds (throw e : Lowering α) :=
  fun _ => List.prefix_rfl

/-- Two lowerings one after the other only add if both do. -/
theorem bind
    {first : Lowering α}
    {next : α → Lowering β}
    (firstAdds : OnlyAdds first)
    (nextAdds : ∀ a, OnlyAdds (next a)) :
    OnlyAdds (first >>= next) := by
  intro before
  have here := firstAdds before
  rw [runFrom_bind]
  rcases firstRun : first.runFrom before with ⟨e | a, between⟩
  · rwa [firstRun] at here
  · rw [firstRun] at here
    exact here.trans (nextAdds a between)

/-- Looking at the recorded searches records nothing. -/
theorem searches :
    OnlyAdds Lowering.searches :=
  fun _ => List.prefix_rfl

/-- Taking the next identity takes no search back. -/
theorem nextId :
    OnlyAdds Lowering.nextId :=
  fun _ => List.prefix_rfl

/-- Recording a search adds it behind the others. -/
theorem record
    (search : PlannedSearch) :
    OnlyAdds (Lowering.record search) :=
  fun before => List.prefix_append before.recorded [search]

/-- An outcome from elsewhere records nothing. -/
theorem ofExcept
    (outcome : Except Error α) :
    OnlyAdds (Lowering.ofExcept outcome) := by
  cases outcome with
  | error e => exact throw e
  | ok a => exact pure a

/-- Lowerings one after the other only add if each of them does. -/
theorem sequence
    {lowerings : List (Lowering α)}
    (adds : ∀ lowering ∈ lowerings, OnlyAdds lowering) :
    OnlyAdds (Lowering.sequence lowerings) := by
  induction lowerings with
  | nil => exact pure []
  | cons first rest inductionHypothesis =>
      obtain ⟨firstAdds, restAdds⟩ := List.forall_mem_cons.mp adds
      exact firstAdds.bind fun _ => (inductionHypothesis restAdds).bind fun _ => pure _

end OnlyAdds

variable {scope : Scope}

/-- The rule for search calls only adds to the record. -/
theorem onlyAdds_lowerCall
    (e : Expr)
    (operands : List (Lowering RelExpr)) :
    OnlyAdds (Search.lowerCall scope e operands) := by
  unfold Search.lowerCall
  split
  · exact .pure _
  · refine .bind .searches fun recorded => ?_
    split
    · exact .throw _
    · exact .bind (.ofExcept _) fun _ => .bind (.ofExcept _) fun _ => .bind .nextId fun _ =>
        .bind (.record _) fun _ => .pure _

/-- Lowering an expression only adds to the record. -/
theorem onlyAdds_lower
    (e : Expr) :
    OnlyAdds (e.lower [Search.lowerCall] scope) := by
  have offer : ∀ {e operands default}, OnlyAdds default →
      OnlyAdds (LoweringRule.offer scope e operands default [Search.lowerCall]) := by
    intro e operands default defaultAdds
    refine .bind (onlyAdds_lowerCall e operands) fun claimed? => ?_
    cases claimed? with
    | some claimed => exact .pure _
    | none => exact defaultAdds
  induction e with
  | item name => exact offer (.throw _)
  | member item property => exact offer (.bind (.ofExcept _) fun _ => .pure _)
  | literal value => exact offer (.pure _)
  | parameter name => exact offer (.pure _)
  | compare left op right leftAdds rightAdds =>
      exact offer (.bind leftAdds fun _ => .bind rightAdds fun _ => .pure _)
  | and left right leftAdds rightAdds =>
      exact offer (.bind leftAdds fun _ => .bind rightAdds fun _ => .pure _)
  | or left right leftAdds rightAdds =>
      exact offer (.bind leftAdds fun _ => .bind rightAdds fun _ => .pure _)
  | not operand operandAdds =>
      exact offer (.bind operandAdds fun _ => .pure _)
  | call function args argAdds =>
      rw [Expr.lower, Expr.lowerAll_eq_map]
      refine offer (.bind (.sequence ?_) fun _ => .pure _)
      simpa using argAdds

end Lowering

/-! ## Plans of joined filters -/

namespace Planner

open Lowering

variable (model : Model) (scope : Scope)

section Filters

/-- A filter is lowered with the searches that this puts on record. -/
theorem runFrom_lowerFilter
    (predicate : Expr)
    (before : PlannedSearches) :
    ((searching model).lowerFilter scope predicate).runFrom before =
      let (lowered, after) := ((searching model).lower scope predicate).runFrom before
      (lowered.map (⟨predicate, ·, after.recorded.drop before.recorded.length⟩), after) := by
  have noEffect : searches.runFrom before = (.ok before.recorded, before) := rfl
  rw [lowerFilter, runFrom_bind, noEffect]
  dsimp only
  rw [runFrom_bind]
  rcases ((searching model).lower scope predicate).runFrom before with ⟨e | lowered, after⟩ <;> rfl

/-- A conjunction is lowered as a filter part by part. -/
theorem lowerFilter_and
    (left right : Expr) :
    (searching model).lowerFilter scope (.and left right) = do
      let first ← (searching model).lowerFilter scope left
      let second ← (searching model).lowerFilter scope right
      return first.join second := by
  have isLowered : (searching model).lower scope (.and left right) = do
      let l ← (searching model).lower scope left
      let r ← (searching model).lower scope right
      return .and l r :=
    offer_of_not_search rfl _ _
  refine ext_runFrom fun before => ?_
  have leftAdds : OnlyAdds ((searching model).lower scope left) := onlyAdds_lower left
  have rightAdds : OnlyAdds ((searching model).lower scope right) := onlyAdds_lower right
  rw [runFrom_lowerFilter, isLowered, runFrom_bind, runFrom_bind, runFrom_lowerFilter]
  obtain ⟨leftNew, isBetween⟩ := leftAdds before
  generalize ((searching model).lower scope left).runFrom before = leftRun at isBetween ⊢
  obtain ⟨e | l, between⟩ := leftRun
  · rfl
  · obtain ⟨rightNew, isAfter⟩ := rightAdds between
    dsimp only [Except.map]
    rw [runFrom_bind, runFrom_bind, runFrom_lowerFilter]
    generalize ((searching model).lower scope right).runFrom between = rightRun at isAfter ⊢
    obtain ⟨e | r, after⟩ := rightRun
    · rfl
    · have inBoth : after.recorded.drop before.recorded.length =
          between.recorded.drop before.recorded.length ++
            after.recorded.drop between.recorded.length := by
        rw [← isAfter, ← isBetween, List.append_assoc, List.drop_left, List.drop_left,
          ← List.append_assoc, List.drop_left]
      dsimp only [Except.map, LoweredFilter.join]
      rw [← inBoth]
      rfl

/-- Joined filters are lowered to the joined lowered filters. -/
theorem mapM_lowerFilter_joinedBy
    (predicates : List Expr) :
    (predicates.joinedBy .and).mapM ((searching model).lowerFilter scope) =
      List.joinedBy LoweredFilter.join <$>
        predicates.mapM ((searching model).lowerFilter scope) :=
  List.mapM_joinedBy (lowerFilter_and model scope) predicates

/-- A joined filter is resolved part by part. -/
theorem resolveFilter_join
    (first second : LoweredFilter) :
    (searching model).resolveFilter scope (first.join second) = do
      let resolvedFirst ← (searching model).resolveFilter scope first
      let resolvedSecond ← (searching model).resolveFilter scope second
      return resolvedFirst.join resolvedSecond := by
  have isResolved : (searching model).resolve scope (.and first.lowered second.lowered) = do
      let l ← (searching model).resolve scope first.lowered
      let r ← (searching model).resolve scope second.lowered
      return .and l r :=
    RelExpr.settle_and
  simp only [resolveFilter, LoweredFilter.join, isResolved, bind_assoc, pure_bind]

/-- Joined filters are resolved to the joined resolved filters. -/
theorem mapM_resolveFilter_joinedBy
    (filters : List LoweredFilter) :
    (filters.joinedBy .join).mapM ((searching model).resolveFilter scope) =
      List.joinedBy LoweredFilter.join <$> filters.mapM ((searching model).resolveFilter scope) :=
  List.mapM_joinedBy (resolveFilter_join model scope) filters

end Filters

section Queries

variable (query : Query)

/-- A query with its filters joined is lowered to the lowered query with its filters joined. -/
theorem lowerQuery_withFiltersJoined :
    (searching model).lowerQuery scope query.withFiltersJoined =
      LoweredQuery.withFiltersJoined <$> (searching model).lowerQuery scope query := by
  simp only [lowerQuery, sequence_map, Query.withFiltersJoined, mapM_lowerFilter_joinedBy,
    map_bind, bind_map_left]
  refine bind_congr fun filters => bind_congr fun inFilters => bind_congr fun joins =>
    bind_congr fun projection => bind_congr fun ordering => bind_congr fun recorded => ?_
  by_cases noOthers : recorded.length = inFilters.length
  · simp [noOthers, LoweredQuery.withFiltersJoined]
  · simp [noOthers]

/-- A lowered query with its filters joined has the draft of the query, with its filters joined. -/
theorem resolveQuery_withFiltersJoined
    (lowered : LoweredQuery)
    (searches : List PlannedSearch) :
    (searching model).resolveQuery scope query.withFiltersJoined lowered.withFiltersJoined
        searches =
      Draft.withFiltersJoined <$>
        (searching model).resolveQuery scope query lowered searches := by
  have samePredicate : ∀ filters : List LoweredFilter,
      conjunction? ((filters.joinedBy .join).map (·.lowered)) =
        conjunction? (filters.map (·.lowered)) := by
    intro filters
    cases filters with
    | nil => rfl
    | cons first others =>
        simp [List.joinedBy, conjunction?, LoweredFilter.lowered_foldl_join]
  simp only [resolveQuery, LoweredQuery.withFiltersJoined, mapM_resolveFilter_joinedBy,
    map_bind, bind_map_left, map_pure, samePredicate]
  rfl

/-- A query with its filters joined has the draft of the query, with its filters joined. -/
theorem draft_withFiltersJoined :
    (searching model).draft query.withFiltersJoined =
      Draft.withFiltersJoined <$> (searching model).draft query := by
  have sameScope : Scope.ofQuery model query.withFiltersJoined = Scope.ofQuery model query := rfl
  simp only [draft_eq_bind, sameScope, lowerQuery_withFiltersJoined, runFrom_map, map_bind]
  refine bind_congr fun scope => ?_
  rcases runFrom ((searching model).lowerQuery scope query) {} with ⟨e | lowered, after⟩
  · rfl
  · exact resolveQuery_withFiltersJoined model scope query lowered after.recorded

/-- Joining filters changes nothing about the searches that the hook sees. -/
theorem showFilters_joinedBy
    (filters : List LoweredFilter)
    (start : Steps) :
    PlanHook.showFilters [Search.putFirst] 0 (filters.joinedBy .join) start =
      PlanHook.showFilters [Search.putFirst] 0 filters start := by
  rw [showFilters_putFirst, showFilters_putFirst]
  cases filters with
  | nil => rfl
  | cons first others =>
      rw [List.joinedBy, List.flatMap_singleton, LoweredFilter.searches_foldl_join,
        List.flatMap_cons]

end Queries

/--
A query whose filters are joined to one, grouped to the left, has the plan of the query: the
same statement text, parameters, columns, searches and steps.  If it has none, the error is
the same.
-/
theorem plan_conjunction
    (model : Model)
    (query : Query)
    (first : Expr)
    (others : List Expr) :
    (searching model).plan { query with filters := [others.foldl .and first] } =
      (searching model).plan { query with filters := first :: others } := by
  let separate : Query := { query with filters := first :: others }
  change (searching model).plan separate.withFiltersJoined = (searching model).plan separate
  simp only [plan, draft_withFiltersJoined, bind_map_left]
  refine bind_congr fun draft => bind_congr fun written => ?_
  rw [Draft.withFiltersJoined]
  exact congrArg (· >>= _) (showFilters_joinedBy draft.filters _)

end Planner

end FullTextQuery
