import FullTextQuery.Proofs.Planner.Plan

namespace FullTextQuery

/-!
# Which queries have a plan

A query over a model that was built has a plan exactly if it meets a list of
conditions on its sources and on the parts of its expressions.  Planning fails
only because one of these conditions is not met, and never because of a fault
of its own.
-/

namespace Planner

open Lowering Sql

/-- The conditions under which a query has a plan. -/
structure Acceptable
    (model : Model)
    (query : Query) :
    Prop where
  /-- Every source ranges over an entity of the model. -/
  entities : ∀ source ∈ query.sources, (model.entity? source.entity).isSome
  /-- Item variables are declared once. -/
  items : (query.sources.map (·.item)).Nodup
  /-- Every member is a property of a declared item. -/
  members : ∀ source property, .member source property ∈ query.nodes →
    ∃ entity, query.entityOf? model source = some entity ∧ (entity.property? property).isSome
  /-- An item stands on its own in a search call only. -/
  bareItems : ∀ name, .item name ∉ query.nodes
  /-- Every other call is one of a known function. -/
  functions : ∀ function args, .call function args ∈ query.nodes →
    (Expr.call function args).searchCall? = none → isKnownFunction function args.length
  /-- There is at most one search call. -/
  single : query.searchCalls.length ≤ 1
  /-- Search calls are in filters. -/
  inFilter : query.otherCalls = []
  /-- The item of a search call has a single key of a kind that keys have, and an index. -/
  searchable : ∀ source phrase, (source, phrase) ∈ query.searchCalls →
    ∃ entity key, query.entityOf? model source = some entity ∧
      entity.primaryKey = [key.name] ∧ entity.property? key.name = some key ∧
      (key.kind = .text ∨ key.kind = .integer) ∧ entity.searchIndex?.isSome
  /-- No parameter of the caller has the name under which a search leaves its keys. -/
  parameters : query.searchCalls ≠ [] → .parameter "search_ids_1" ∉ query.nodes

variable {model : Model} {query : Query} {draft : Draft}

section Parts

/-- The item of a search call has what a search needs. -/
theorem isSome_searchable?_iff
    {entity : Entity} :
    entity.searchable?.isSome ↔
      ∃ key, entity.primaryKey = [key.name] ∧ entity.property? key.name = some key ∧
        (key.kind = .text ∨ key.kind = .integer) ∧ entity.searchIndex?.isSome := by
  have notReal : ∀ kind : ScalarKind, kind ≠ .real ↔ kind = .text ∨ kind = .integer := by
    intro kind
    cases kind <;> simp
  simp only [Option.isSome_iff_exists, Prod.exists, Entity.searchable?_eq_some, notReal]
  grind

/-- The conditions on parts say that every part has a meaning over the model. -/
theorem meaningful_iff :
    (∀ node ∈ query.nodes, node.Meaningful model query) ↔
      (∀ source property, .member source property ∈ query.nodes →
        ∃ entity, query.entityOf? model source = some entity ∧
          (entity.property? property).isSome) ∧
      (∀ name, .item name ∉ query.nodes) ∧
      (∀ function args, .call function args ∈ query.nodes →
        (Expr.call function args).searchCall? = none →
        isKnownFunction function args.length) ∧
      ∀ source phrase, (source, phrase) ∈ query.searchCalls →
        ∃ entity, query.entityOf? model source = some entity ∧ entity.searchable?.isSome := by
  constructor
  · intro meaningful
    refine ⟨?members, ?items, ?functions, ?searches⟩
    case members =>
      intro source property isPart
      exact meaningful _ isPart
    case items =>
      intro name isPart
      exact meaningful _ isPart
    case functions =>
      intro function args isPart notSearch
      simpa [Expr.Meaningful, notSearch] using meaningful _ isPart
    case searches =>
      intro source phrase isSearched
      obtain ⟨node, isPart, isSearch⟩ := List.mem_filterMap.mp isSearched
      obtain ⟨text, rfl, _⟩ := Expr.searchCall?_eq_some.mp isSearch
      simpa [Expr.Meaningful, isSearch] using meaningful _ isPart
  · rintro ⟨members, items, functions, searches⟩ node isPart
    cases node with
    | item name => exact items name isPart
    | member source property => exact members source property isPart
    | call function args =>
        cases isSearch : (Expr.call function args).searchCall? with
        | none => simpa [Expr.Meaningful, isSearch] using functions function args isPart isSearch
        | some searched =>
            obtain ⟨source, phrase⟩ := searched
            have isSearched : (source, phrase) ∈ query.searchCalls :=
              List.mem_filterMap.mpr ⟨_, isPart, isSearch⟩
            simpa [Expr.Meaningful, isSearch] using searches source phrase isSearched
    | literal | parameter | compare | and | or | not => trivial

/-- All expressions of a query have images exactly if its parts are meaningful. -/
theorem forall_exists_image?_iff :
    (∀ e ∈ query.expressions, ∃ image, e.image? model query = some image) ↔
      ∀ node ∈ query.nodes, node.Meaningful model query := by
  simp only [Expr.exists_image?_iff, Query.nodes, List.mem_flatMap]
  grind

/-- The expressions of a query that has a draft have images. -/
theorem Drafted.exists_image?
    (drafted : Drafted model query draft) :
    ∀ e ∈ query.expressions, ∃ image, e.image? model query = some image := by
  simp only [Query.expressions, List.forall_mem_append, List.mem_flatMap, List.forall_mem_map]
  refine ⟨⟨⟨?filters, ?joins⟩, ?projection⟩, ?ordering⟩
  case filters =>
    exact List.exists_forall₂_iff.mp ⟨_, drafted.filterImages⟩
  case joins =>
    rintro e ⟨join, isJoin, isSide⟩
    obtain ⟨joined, joinDrafted⟩ := List.exists_forall₂_iff.mp ⟨_, drafted.joins⟩ join isJoin
    obtain ⟨l, r, leftImaged, rightImaged, _⟩ :=
      Expr.image?_compare_eq_some.mp joinDrafted.on
    simp only [List.mem_cons, List.not_mem_nil, or_false] at isSide
    rcases isSide with rfl | rfl
    · exact ⟨l, leftImaged⟩
    · exact ⟨r, rightImaged⟩
  case projection =>
    intro e isProjected
    have projected : query.projected model = query.projection := by
      unfold Query.projected
      split
      · simp_all
      · rfl
    have outputs := List.exists_forall₂_iff.mp
      ⟨_, drafted.projection.outputs drafted.known⟩
    rw [projected] at outputs
    obtain ⟨output, imaged⟩ := outputs e isProjected
    exact ⟨output.expr, imaged⟩
  case ordering =>
    intro key isKey
    obtain ⟨term, keyDrafted⟩ := List.exists_forall₂_iff.mp ⟨_, drafted.ordering⟩ key isKey
    exact ⟨term.expr, keyDrafted.expr⟩

end Parts

section Existence

variable (known : ∀ source ∈ query.sources, (model.entity? source.entity).isSome)

include known

/-- Projected expressions that have images have columns. -/
theorem exists_columnsLowered
    {es : List Expr}
    (images : ∀ e ∈ es, ∃ image, e.image? model query = some image)
    (earlier : List LoweredColumn) :
    ∃ columns, ColumnsLowered (Scope.declared model query) earlier es (earlier ++ columns) ∧
      ∀ column ∈ columns, ∃ output, ColumnResolved (Scope.declared model query) column output := by
  induction es generalizing earlier with
  | nil =>
      exact ⟨[], by simp [ColumnsLowered], by simp⟩
  | cons e rest inductionHypothesis =>
      obtain ⟨⟨image, imaged⟩, restImages⟩ := List.forall_mem_cons.mp images
      obtain ⟨lowered, lowers, resolves⟩ := (Expr.composed known e).mp imaged
      have named : ∃ column, columnFor (Scope.declared model query) earlier e = .ok column := by
        cases e with
        | member source property =>
            obtain ⟨found, inScope, _⟩ := Option.map_eq_some_iff.mp lowers
            exact ⟨_, by simp only [columnFor, Scope.item, inScope]; rfl⟩
        | _ => exact ⟨_, rfl⟩
      obtain ⟨column, isColumn⟩ := named
      obtain ⟨columns, restLowered, restResolved⟩ :=
        inductionHypothesis restImages (earlier ++ [⟨lowered, column⟩])
      refine ⟨⟨lowered, column⟩ :: columns, ⟨column, lowered, isColumn, lowers, ?_⟩, ?_⟩
      · simpa using restLowered
      · exact List.forall_mem_cons.mpr ⟨⟨⟨image, column.name⟩, resolves, rfl⟩, restResolved⟩

/-- A projection whose expressions have images has output columns. -/
theorem exists_projectionDrafted
    (images : ∀ e ∈ query.projection, ∃ image, e.image? model query = some image) :
    ∃ outputs columns, ProjectionDrafted model query outputs columns := by
  have resolvable : ∃ lowered, ProjectionLowered (Scope.declared model query) query lowered ∧
      ∀ column ∈ lowered, ∃ output,
        ColumnResolved (Scope.declared model query) column output := by
    unfold ProjectionLowered
    cases isProjection : query.projection with
    | nil =>
        obtain ⟨root, isRoot⟩ := Option.isSome_iff_exists.mp
          (known query.source (by simp [Query.sources]))
        have inScope : (Scope.declared model query).items.get? query.source.item =
            some ⟨query.source.item, root⟩ := by
          simp [Scope.get?_declared known, Query.entityOf?, Query.sources, isRoot]
        refine ⟨_, ⟨_, inScope, rfl⟩, ?_⟩
        simp only [everyProperty, List.forall_mem_map]
        intro property isProperty
        have present : (root.property? property.name).isSome := by
          rw [Entity.property?, List.find?_isSome]
          exact ⟨property, isProperty, by simp⟩
        obtain ⟨found, has⟩ := Option.isSome_iff_exists.mp present
        exact ⟨⟨.column query.source.item found.column, property.name⟩,
          by simp [RelExpr.resolved?, inScope, has], rfl⟩
    | cons e rest =>
        rw [isProjection] at images
        obtain ⟨columns, lowered, resolved⟩ := exists_columnsLowered known images []
        exact ⟨columns, lowered, resolved⟩
  obtain ⟨lowered, projection, resolved⟩ := resolvable
  obtain ⟨outputs, outputsResolved⟩ := List.exists_forall₂_iff.mpr resolved
  exact ⟨outputs, _, lowered, projection, outputsResolved, rfl⟩

/-- The search of a search call with a meaning can be planned. -/
theorem exists_planned?
    {source : String}
    (phrase : Expr.SearchPhrase)
    {entity : Entity}
    (ranges : query.entityOf? model source = some entity)
    (searchable : entity.searchable?.isSome) :
    ∃ search, Search.planned? (Scope.declared model query) (source, phrase) = some search := by
  obtain ⟨⟨key, index⟩, isSearchable⟩ := Option.isSome_iff_exists.mp searchable
  exact ⟨_, by
    simp only [Search.planned?, Scope.get?_declared known, ranges, Option.map_some,
      Option.bind_eq_bind, Option.bind_some, isSearchable]
    rfl⟩

/-- A query whose parts are meaningful has a draft, if its search call is in a filter. -/
theorem exists_drafted
    (distinct : (query.sources.map (·.item)).Nodup)
    (meaningful : ∀ node ∈ query.nodes, node.Meaningful model query)
    (single : query.searchCalls.length ≤ 1)
    (noOthers : query.otherCalls = []) :
    ∃ draft, Drafted model query draft := by
  have images := forall_exists_image?_iff.mpr meaningful
  simp only [Query.expressions, List.forall_mem_append, List.mem_flatMap,
    List.forall_mem_map] at images
  obtain ⟨⟨⟨filterImages, joinImages⟩, projectionImages⟩, orderingImages⟩ := images
  obtain ⟨filters, filtersDrafted⟩ : ∃ filters,
      List.Forall₂ (FilterDrafted model query) query.filters filters := by
    refine List.exists_forall₂_iff.mpr fun predicate isFilter => ?_
    obtain ⟨image, imaged⟩ := filterImages predicate isFilter
    exact ⟨⟨predicate, image, _⟩, rfl, imaged, rfl⟩
  obtain ⟨joins, joinsDrafted⟩ : ∃ joins,
      List.Forall₂ (JoinDrafted model query) query.joins joins := by
    refine List.exists_forall₂_iff.mpr fun join isJoin => ?_
    obtain ⟨entity, isKnown⟩ := Option.isSome_iff_exists.mp
      (known join.source (by simp only [Query.sources, List.mem_cons, List.mem_map]; grind))
    obtain ⟨left, leftImaged⟩ := joinImages join.left ⟨join, isJoin, by simp⟩
    obtain ⟨right, rightImaged⟩ := joinImages join.right ⟨join, isJoin, by simp⟩
    exact ⟨⟨⟨entity.table, join.source.item⟩, .compare left .eq right⟩, ⟨entity, isKnown, rfl⟩,
      Expr.image?_compare_eq_some.mpr ⟨left, right, leftImaged, rightImaged, rfl⟩⟩
  obtain ⟨outputs, columns, projection⟩ := exists_projectionDrafted known projectionImages
  obtain ⟨terms, orderingDrafted⟩ : ∃ terms,
      List.Forall₂ (SortKeyDrafted model query) query.ordering terms := by
    refine List.exists_forall₂_iff.mpr fun key isKey => ?_
    obtain ⟨image, imaged⟩ := orderingImages key isKey
    exact ⟨⟨image, key.descending⟩, imaged, rfl⟩
  obtain ⟨searches, recorded⟩ : ∃ searches,
      PlannedSearches.after? (Scope.declared model query) query.filterCalls {} =
        some searches := by
    rw [Query.searchCalls_eq_append, noOthers, List.append_nil] at single
    rcases isCalls : query.filterCalls with _ | ⟨⟨source, phrase⟩, _ | ⟨second, others⟩⟩
    · exact ⟨{}, rfl⟩
    · obtain ⟨_, _, _, searchable⟩ := meaningful_iff.mp meaningful
      obtain ⟨entity, ranges, isSearchable⟩ := searchable source phrase
        (by simp [Query.searchCalls_eq_append, isCalls])
      obtain ⟨search, planned⟩ := exists_planned? known phrase ranges isSearchable
      exact ⟨_, PlannedSearches.after?_empty_eq_some.mpr
        (.inr ⟨_, search, rfl, planned, rfl⟩)⟩
    · simp [isCalls] at single
  obtain ⟨root, isRoot⟩ := Option.isSome_iff_exists.mp
    (known query.source (by simp [Query.sources]))
  exact ⟨{
    statement := {
      projection := outputs
      source := ⟨root.table, query.source.item⟩
      joins
      predicate? := conjunction? (filters.map (·.lowered))
      ordering := terms
      limit? := query.limit? }
    filters
    columns
    searches := searches.recorded },
    known, distinct, filtersDrafted, joinsDrafted, projection, orderingDrafted,
    ⟨root, isRoot, rfl⟩, rfl, rfl, noOthers, searches, recorded, rfl⟩

end Existence

namespace Drafted

variable (drafted : Drafted model query draft)

include drafted

/-- A draft has a search exactly if the query has a search call. -/
theorem searches_ne_nil_iff :
    draft.searches ≠ [] ↔ query.searchCalls ≠ [] := by
  rw [Query.searchCalls_eq_append, drafted.noOthers, List.append_nil]
  rcases drafted.search_cases with ⟨noCalls, noSearches, _⟩ | ⟨_, _, _, isCall, _, _, isSearch, _⟩
  · simp [noCalls, noSearches]
  · simp [isCall, isSearch]

/-- The parameters of a draft can be listed unless the caller's has the name of a value set. -/
theorem exists_listUses_iff :
    (∃ parameters, listUses [] draft.statement.uses = .ok parameters) ↔
      (query.searchCalls ≠ [] → .parameter (Search.keyParameter 1) ∉ query.nodes) := by
  have callerUses : ∀ {name}, ⟨name, .caller⟩ ∈ draft.statement.uses ↔
      .parameter name ∈ query.nodes := by
    intro name
    simp [drafted.mem_uses, Expr.use?_eq_some_caller]
  have searchUses : ∀ {name}, ⟨name, .search⟩ ∈ draft.statement.uses ↔
      name = Search.keyParameter 1 ∧ query.searchCalls ≠ [] := by
    intro name
    rw [drafted.search_mem_uses, drafted.searches_ne_nil_iff]
  rw [Sql.exists_listUses_iff distinct_nil, List.nil_append]
  constructor
  · intro agree searches isPart
    have same := agree _ (callerUses.mpr isPart) _ (searchUses.mpr ⟨rfl, searches⟩) rfl
    simp at same
  · rintro disjoint ⟨name, first⟩ firstUsed ⟨_, second⟩ secondUsed rfl
    cases first <;> cases second
    case caller.caller => rfl
    case search.search => rfl
    case caller.search =>
      obtain ⟨rfl, searches⟩ := searchUses.mp secondUsed
      exact absurd (callerUses.mp firstUsed) (disjoint searches)
    case search.caller =>
      obtain ⟨rfl, searches⟩ := searchUses.mp firstUsed
      exact absurd (callerUses.mp secondUsed) (disjoint searches)

end Drafted

/-- A query has a plan exactly if it has a draft, and no parameter takes the name of the keys. -/
theorem exists_plan_iff :
    (∃ plan, (searching model).plan query = .ok plan) ↔
      (∃ draft, Drafted model query draft) ∧
        (query.searchCalls ≠ [] → .parameter (Search.keyParameter 1) ∉ query.nodes) := by
  simp only [plan_eq_ok]
  constructor
  · rintro ⟨_, draft, parameters, drafted, listed, _⟩
    exact ⟨⟨draft, drafted⟩, drafted.exists_listUses_iff.mp ⟨parameters, listed⟩⟩
  · rintro ⟨⟨draft, drafted⟩, disjoint⟩
    obtain ⟨parameters, listed⟩ := drafted.exists_listUses_iff.mpr disjoint
    exact ⟨_, draft, parameters, drafted, listed, rfl⟩

/-- The conditions say that there is a draft whose parameters can be listed. -/
theorem acceptable_iff :
    Acceptable model query ↔
      (∃ draft, Drafted model query draft) ∧
        (query.searchCalls ≠ [] → .parameter (Search.keyParameter 1) ∉ query.nodes) := by
  constructor
  · rintro ⟨entities, items, members, bareItems, functions, single, inFilter, searchable,
      parameters⟩
    refine ⟨exists_drafted entities items (meaningful_iff.mpr ⟨members, bareItems, functions, ?_⟩)
      single inFilter, parameters⟩
    intro source phrase isSearched
    obtain ⟨entity, key, ranges, isSearchable⟩ := searchable source phrase isSearched
    exact ⟨entity, ranges, isSome_searchable?_iff.mpr ⟨key, isSearchable⟩⟩
  · rintro ⟨⟨draft, drafted⟩, disjoint⟩
    obtain ⟨members, bareItems, functions, searchable⟩ :=
      meaningful_iff.mp (forall_exists_image?_iff.mp drafted.exists_image?)
    refine ⟨drafted.known, drafted.distinct, members, bareItems, functions, ?single,
      drafted.noOthers, ?searchable, disjoint⟩
    case single =>
      rw [Query.searchCalls_eq_append, drafted.noOthers, List.append_nil]
      rcases drafted.search_cases with ⟨noCalls, _⟩ | ⟨_, _, _, isCall, _⟩
      · simp [noCalls]
      · simp [isCall]
    case searchable =>
      intro source phrase isSearched
      obtain ⟨entity, ranges, isSearchable⟩ := searchable source phrase isSearched
      obtain ⟨key, conditions⟩ := isSome_searchable?_iff.mp isSearchable
      exact ⟨entity, key, ranges, conditions⟩

section Failure

variable (built : model.Built)

include built

/-- Every entity in the scope of a query over a built model passes its check. -/
theorem check_of_declared
    (known : ∀ source ∈ query.sources, (model.entity? source.entity).isSome)
    {item : String}
    {found : ScopeItem}
    (inScope : (Scope.declared model query).items.get? item = some found) :
    found.entity.check = .ok () := by
  rw [Scope.get?_declared known] at inScope
  obtain ⟨entity, ranges, rfl⟩ := Option.map_eq_some_iff.mp inScope
  obtain ⟨source, _, _, isKnown⟩ := Query.exists_source_of_entityOf? ranges
  exact (built.checked isKnown).1

/-- A query fails to have a draft only for a reason of planning. -/
theorem failsOnlyBy_draft :
    ((searching model).draft query).FailsOnlyBy Error.IsPlan := by
  rw [draft_eq_bind]
  refine .bind (Error.failsOnlyBy_mapError_plan _) fun scope hasScope => ?_
  obtain ⟨known, _, rfl⟩ := Scope.ofQuery_eq_ok.mp (Except.mapError_eq_ok.mp hasScope)
  refine .bind (failsOnlyBy_lowerQuery (check_of_declared built known) query {})
    fun lowered _ => ?_
  have resolves : ∀ e, ((searching model).resolve (Scope.declared model query) e).FailsOnlyBy
      Error.IsPlan := RelExpr.failsOnlyBy_resolve
  refine .bind (.mapM fun filter _ => (resolves _).bind fun _ _ => .ok) fun _ _ =>
    .bind (.mapM fun join _ => .bind (Error.failsOnlyBy_mapError_plan _) fun _ _ =>
      (resolves _).bind fun _ _ => .ok) fun _ _ =>
    .bind (.mapM fun column _ => (resolves _).bind fun _ _ => .ok) fun _ _ =>
    .bind (.mapM fun term _ => (resolves _).bind fun _ _ => .ok) fun _ _ =>
    .bind (Error.failsOnlyBy_mapError_plan _) fun _ _ => .ok

/-- A query fails to have a plan only for a reason of planning. -/
theorem failsOnlyBy_plan :
    ((searching model).plan query).FailsOnlyBy Error.IsPlan := by
  refine .bind (failsOnlyBy_draft built) fun draft isDraft => ?_
  have drafted := draft_eq_ok.mp isDraft
  rw [Statement.write_eq drafted.resolved]
  refine .bind (failsOnlyBy_listUses _ _).map fun written isWritten => ?_
  obtain ⟨parameters, listed, rfl⟩ := Except.map_eq_ok.mp isWritten
  have succeeds := drafted.showFilters_eq_ok listed
  refine .bind (fun e failed => ?_) fun steps isSteps => .bind (fun e failed => ?_) fun _ _ => .ok
  · cases succeeds.symm.trans failed
  · obtain rfl := Except.ok.inj (succeeds.symm.trans isSteps)
    rw [drafted.checkValueSets_eq_ok listed] at failed
    cases failed

end Failure

/-- A query has a plan exactly if it meets the conditions; other queries are refused as such. -/
theorem exists_plan_iff_acceptable
    {model : Model}
    (built : model.Built)
    (query : Query) :
    ((∃ plan, (searching model).plan query = .ok plan) ↔ Acceptable model query) ∧
      ∀ e, (searching model).plan query = .error e → ∃ cause, e = .plan cause :=
  ⟨exists_plan_iff.trans acceptable_iff.symm, failsOnlyBy_plan built⟩

/-- A query with a search call meets the conditions, since it has a plan. -/
theorem acceptable_ordersOfFound :
    Model.shop.Built ∧ Acceptable .shop .ordersOfFound := by
  have isPlanned : ((searching .shop).plan .ordersOfFound).toOption.isSome := by
    decide +kernel
  refine ⟨Model.built_shop, (exists_plan_iff_acceptable Model.built_shop .ordersOfFound).1.mp ?_⟩
  cases planned : (searching .shop).plan .ordersOfFound with
  | error e =>
      rw [planned] at isPlanned
      cases isPlanned
  | ok plan =>
      exact ⟨plan, rfl⟩

end Planner

end FullTextQuery
