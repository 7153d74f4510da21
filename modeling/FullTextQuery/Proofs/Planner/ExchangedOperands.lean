import FullTextQuery.Binary64.Nearest
import FullTextQuery.Proofs.Meaning.Run
import FullTextQuery.Proofs.Planner.Acceptance
import FullTextQuery.Proofs.Planner.AlikeRuns
import FullTextQuery.Proofs.Relational.ExchangedImages

namespace FullTextQuery

/-!
# Equality is symmetric

With the operands of some equalities exchanged, a query has a plan as before.  Runs give the
same records in the same order, unless one of these operands is the literal null or a search
call: an equality asks whether its left operand is null if a null literal is on the right,
and is never true if it is on the left, and a search call on the right applies to the
equality as a whole.
-/

namespace Statement

variable {harmless : Prop} {s other : Statement}

/-- With operands exchanged, a statement uses the same parameters. -/
theorem Related.uses_perm
    [NumeralReading]
    (related : s.Related (RelExpr.Exchanged harmless) other) :
    other.uses.Perm s.uses :=
  List.flatMap_perm_of_forall₂ (related.expressions.imp fun _ _ exchanged => exchanged.uses)

/-- With operands exchanged harmlessly, a statement comes to the same. -/
theorem Related.alike
    [NumeralReading]
    (related : s.Related (RelExpr.Exchanged harmless) other)
    (isHarmless : harmless)
    {bindings otherBindings : Store.Bindings}
    (sameCell : ∀ name, otherBindings.cell name = bindings.cell name)
    (sameCells : ∀ valueSet, otherBindings.cells valueSet = bindings.cells valueSet) :
    s.Alike False bindings otherBindings other where
  parts := related.imp_of_mem fun _ _ _ exchanged =>
    exchanged.alike isHarmless sameCell sameCells
  places := related.ordering.imp fun _ _ terms => terms.1.place isHarmless
  named := by
    simp only [Named, related.uses_perm.mem_iff]
  nulFree := (related.imp_of_mem fun _ _ _ exchanged => exchanged.nulFree).nulFree

end Statement

/-- Whether two plans have the same columns and give the same records, with the same calls. -/
structure QueryPlan.RunsAlike
    [NumeralReading]
    (plan other : QueryPlan) :
    Prop where
  columns : other.columns = plan.columns
  /-- Either both runs fail, or both give the same records in the same order. -/
  records : ∀ {σ : Type} (database : Database σ) (parameters : Parameters),
    (database.run other parameters).1.toOption = (database.run plan parameters).1.toOption
  /-- The search service is asked the same. -/
  after : ∀ {σ : Type} (database : Database σ) (parameters : Parameters),
    (database.run other parameters).2 = (database.run plan parameters).2

namespace Query

variable {allowed : Expr → Prop} {query other : Query}

/-- The sides of joins and all expressions but those may have operands exchanged. -/
theorem Related.symm
    (related : query.Related (Expr.Exchanged allowed) other) :
    other.Related (Expr.Exchanged allowed) query where
  source := related.source.symm
  joins := (related.joins.imp fun _ _ both => And.intro both.1.symm both.2.symm).flip
  filters := (related.filters.imp fun _ _ exchanged => exchanged.symm).flip
  projection := (related.projection.imp fun _ _ exchanged => exchanged.symm).flip
  ordering := (related.ordering.imp fun _ _ both => And.intro both.1.symm both.2.symm).flip
  limit := related.limit.symm

end Query

namespace Planner

open PlannedSearches

variable {model : Model} {query other : Query} {draft : Draft} {allowed : Expr → Prop}

variable [NumeralReading]

/-- Images of expressions with exchanged operands have exchanged operands themselves. -/
theorem carries_exchanged
    (allowed : Expr → Prop) :
    Expr.Carries model query (Expr.Exchanged allowed)
      (RelExpr.Exchanged (∀ e, allowed e → e.StandsAnywhere)) where
  image := fun exchanged imaged => exchanged.exists_image imaged
  named := fun exchanged => exchanged.namedAlike
  column := fun tableAlias name => .refl (.column tableAlias name)

/-- With operands exchanged, a query that has a draft has one with operands exchanged. -/
theorem Drafted.exists_exchanged
    (drafted : Drafted model query draft)
    (exchanged : query.Related (Expr.Exchanged allowed) other) :
    ∃ otherDraft, Drafted model other otherDraft ∧
      draft.statement.Related (RelExpr.Exchanged (∀ e, allowed e → e.StandsAnywhere))
        otherDraft.statement ∧
      otherDraft.columns = draft.columns ∧ otherDraft.searches = draft.searches := by
  have noOthers : other.otherCalls = [] := by
    refine exchanged.otherCalls_eq_nil (fun same noCalls => ?_) drafted.noOthers
    have perm := same.searchCalls_perm
    rwa [noCalls, List.perm_nil] at perm
  have calls : other.filterCalls.Perm query.filterCalls :=
    List.flatMap_perm_of_forall₂ (exchanged.filters.imp fun _ _ same => same.searchCalls_perm)
  -- There is one search call at most, so there is no order in which to plan them.
  obtain ⟨searches, recorded, isSearches⟩ := drafted.searches
  have otherRecorded : after? (Scope.declared model query) other.filterCalls {} =
      some searches := by
    rcases after?_empty_eq_some.mp recorded with ⟨noCalls, _⟩ | ⟨call, _, isCall, _⟩
    · rw [noCalls, List.perm_nil] at calls
      rwa [calls, ← noCalls]
    · rw [isCall, List.perm_singleton] at calls
      rwa [calls, ← isCall]
  rw [isSearches]
  exact drafted.exists_related (carries_exchanged allowed) exchanged noOthers otherRecorded
    (conjunction?_related fun lefts rights => lefts.and rights)

/-- With operands exchanged, a query that has a plan has one with operands exchanged. -/
theorem exists_plan_exchanged
    {plan : QueryPlan}
    (planned : (searching model).plan query = .ok plan)
    (exchanged : query.Related (Expr.Exchanged allowed) other) :
    ∃ otherPlan, (searching model).plan other = .ok otherPlan ∧
      ((∀ e, allowed e → e.StandsAnywhere) → plan.RunsAlike otherPlan) := by
  obtain ⟨draft, parameters, drafted, listed, rfl⟩ := plan_eq_ok.mp planned
  obtain ⟨otherDraft, otherDrafted, statement, columns, searches⟩ :=
    drafted.exists_exchanged exchanged
  have sameUses := statement.uses_perm
  obtain ⟨otherParameters, otherListed⟩ : ∃ otherParameters,
      Sql.listUses [] otherDraft.statement.uses = .ok otherParameters := by
    rw [Sql.exists_listUses_iff Sql.distinct_nil]
    have agree := (Sql.exists_listUses_iff Sql.distinct_nil).mp ⟨parameters, listed⟩
    simpa only [List.nil_append, sameUses.mem_iff] using agree
  refine ⟨_, plan_eq_ok.mpr ⟨otherDraft, otherParameters, otherDrafted, otherListed, rfl⟩,
    fun isHarmless => ?_⟩
  obtain ⟨distinct, isListed⟩ := Sql.listUses_eq_ok Sql.distinct_nil listed
  obtain ⟨otherDistinct, isOtherListed⟩ := Sql.listUses_eq_ok Sql.distinct_nil otherListed
  have sameListed : ∀ parameter, parameter ∈ otherParameters ↔ parameter ∈ parameters := by
    intro parameter
    rw [isListed, isOtherListed, sameUses.mem_iff]
  have rowsAlike : ∀ (store : Store) (context : RunContext),
      Except.Related False (fun records otherRecords => otherRecords = records)
        ((rows draft parameters).run store context)
        ((rows otherDraft otherParameters).run store context) := by
    intro store context
    refine drafted.related_run listed otherDrafted otherListed columns ?_ ?_
    · simp only [sameListed]
    · intro bindings otherBindings areBound otherBound
      have same : ∀ name, otherBindings.get? name = bindings.get? name := fun name =>
        RowStep.get?_bindings_congr distinct otherDistinct areBound otherBound
          fun supplier => sameListed ⟨name, supplier⟩
      have sameCells : ∀ valueSet, otherBindings.cells valueSet = bindings.cells valueSet :=
        fun valueSet => by rw [Store.Bindings.cells, Store.Bindings.cells, same]
      exact ⟨sameCells, statement.alike isHarmless
        (fun name => by rw [Store.Bindings.cell, Store.Bindings.cell, same]) sameCells⟩
  have sameSearch : ∀ context : RunContext, Option.Rel (SearchStep.Alike context)
      (steps draft parameters).search? (steps otherDraft otherParameters).search? := by
    intro context
    rw [steps, steps, searches]
    cases draft.searches with
    | nil => exact .none
    | cons search _ => exact .some ⟨rfl, rfl, rfl, rfl⟩
  have runsAlike : ∀ {σ : Type} (database : Database σ) (values : Parameters),
      Except.Related False (fun records otherRecords => otherRecords = records)
          (database.run ⟨steps draft parameters, draft.searches⟩ values).1
          (database.run ⟨steps otherDraft otherParameters, otherDraft.searches⟩ values).1 ∧
        (database.run ⟨steps otherDraft otherParameters, otherDraft.searches⟩ values).2 =
          (database.run ⟨steps draft parameters, draft.searches⟩ values).2 :=
    fun database values => Database.related_run database (sameSearch (.start values))
      (fun context _ => by simpa using rowsAlike database.store context)
  exact {
    columns := by simpa [QueryPlan.columns, rows] using columns
    records := fun database values => (runsAlike database values).1.toOption_eq not_false
    after := fun database values => (runsAlike database values).2 }

/--
With the operands of some equalities exchanged, a query has a plan exactly if it had one,
and if none of the operands is null or a search call, the plans give the same records.
-/
theorem runsAlike_of_exchanged
    (model : Model)
    {query other : Query}
    (exchanged : query.Related (Expr.Exchanged fun _ => True) other) :
    ((∃ plan, (searching model).plan query = .ok plan) ↔
        ∃ plan, (searching model).plan other = .ok plan) ∧
      (query.Related (Expr.Exchanged Expr.StandsAnywhere) other →
        ∀ plan otherPlan, (searching model).plan query = .ok plan →
          (searching model).plan other = .ok otherPlan → plan.RunsAlike otherPlan) := by
  refine ⟨⟨?_, ?_⟩, ?_⟩
  · rintro ⟨plan, planned⟩
    obtain ⟨otherPlan, otherPlanned, _⟩ := exists_plan_exchanged planned exchanged
    exact ⟨otherPlan, otherPlanned⟩
  · rintro ⟨plan, planned⟩
    obtain ⟨otherPlan, otherPlanned, _⟩ := exists_plan_exchanged planned exchanged.symm
    exact ⟨otherPlan, otherPlanned⟩
  · intro anywhere plan otherPlan planned otherPlanned
    obtain ⟨_, isOther, alike⟩ := exists_plan_exchanged planned anywhere
    obtain rfl := Except.ok.inj (isOther.symm.trans otherPlanned)
    exact alike fun _ => id

end Planner

namespace Query

/-- The orders of found customers, with the operands of its equalities exchanged. -/
def ordersOfFoundExchanged : Query where
  source := ⟨"o", "Order"⟩
  joins := [⟨⟨"c", "Customer"⟩, .member "c" "Id", .member "o" "Buyer"⟩]
  filters := [
    .not (.compare (.parameter "name") .eq (.member "c" "Name")),
    .or (.search "c" "acme") (.compare (.member "o" "Number") .lt (.literal (.integer 7)))]
  projection := [.member "o" "Number", .member "c" "Name"]

/-- The operands in the query are exchanged as far as they may be. -/
theorem exchanged_ordersOfFound
    {allowed : Expr → Prop}
    (members : ∀ item property, allowed (.member item property))
    (parameters : ∀ name, allowed (.parameter name)) :
    ordersOfFound.Related (Expr.Exchanged allowed) ordersOfFoundExchanged where
  source := rfl
  joins := .cons ⟨rfl, .exchange (.inl rfl) (members _ _) (members _ _)⟩ .nil
  filters := .cons (.not (.exchange (.inl rfl) (members _ _) (parameters _)))
    (.cons (.refl _) .nil)
  projection := .cons (.refl _) (.cons (.refl _) .nil)
  ordering := .nil
  limit := rfl

/-- The customers without a name. -/
def unnamed : Query where
  source := ⟨"c", "Customer"⟩
  filters := [.compare (.member "c" "Name") .eq (.literal .null)]
  projection := [.member "c" "Id"]

/-- The customers without a name, with null as the left operand. -/
def unnamedExchanged : Query where
  source := ⟨"c", "Customer"⟩
  filters := [.compare (.literal .null) .eq (.member "c" "Name")]
  projection := [.member "c" "Id"]

end Query

namespace Planner

/-- A join and a negated filter with their operands exchanged. -/
theorem runsAlike_ordersOfFoundExchanged :
    Query.ordersOfFound.Related (Expr.Exchanged fun _ => True) .ordersOfFoundExchanged ∧
      ∃ plan otherPlan, (searching .shop).plan .ordersOfFound = .ok plan ∧
        (searching .shop).plan .ordersOfFoundExchanged = .ok otherPlan ∧
        plan.RunsAlike otherPlan := by
  have exchanged : Query.ordersOfFound.Related (Expr.Exchanged fun _ => True)
      .ordersOfFoundExchanged :=
    Query.exchanged_ordersOfFound (fun _ _ => trivial) fun _ => trivial
  have isPlanned : ((searching .shop).plan .ordersOfFound).toOption.isSome := by
    decide +kernel
  obtain ⟨samePlans, runsAlike⟩ := runsAlike_of_exchanged .shop exchanged
  obtain ⟨plan, planned⟩ := Except.exists_eq_ok_iff.mpr isPlanned
  obtain ⟨otherPlan, otherPlanned⟩ := samePlans.mp ⟨plan, planned⟩
  refine ⟨exchanged, plan, otherPlan, planned, otherPlanned, runsAlike ?_ plan otherPlan planned
    otherPlanned⟩
  exact Query.exchanged_ordersOfFound (fun _ _ => ⟨nofun, rfl⟩) fun _ => ⟨nofun, rfl⟩

/-- With null as the left operand, the customer without a name is not returned. -/
theorem exists_exchanged_with_other_records :
    Query.unnamed.Related (Expr.Exchanged fun _ => True) .unnamedExchanged ∧
      ∃ plan otherPlan, (searching .shop).plan .unnamed = .ok plan ∧
        (searching .shop).plan .unnamedExchanged = .ok otherPlan ∧
        (Database.customers.run plan .empty).1 = .ok [⟨[("Id", .text "C")]⟩] ∧
        (Database.customers.run otherPlan .empty).1 = .ok [] := by
  have exchanged : Query.unnamed.Related (Expr.Exchanged fun _ => True) .unnamedExchanged :=
    ⟨rfl, .nil, .cons (.exchange (.inl rfl) trivial trivial) .nil, .cons (.refl _) .nil, .nil,
      rfl⟩
  have runs : ∀ entry ∈ [(Query.unnamed, [Record.mk [("Id", Value.text "C")]]),
        (Query.unnamedExchanged, [])],
      ((searching .shop).plan entry.1).toOption.map (fun plan =>
        (Database.customers.run plan .empty).1.toOption) = some (some entry.2) := by
    decide +kernel
  obtain ⟨plan, planned, isFound⟩ := exists_plan_of_run (runs _ List.mem_cons_self)
  obtain ⟨otherPlan, otherPlanned, nothing⟩ :=
    exists_plan_of_run (runs _ (.tail _ List.mem_cons_self))
  exact ⟨exchanged, plan, otherPlan, planned, otherPlanned, isFound, nothing⟩

end Planner

end FullTextQuery
