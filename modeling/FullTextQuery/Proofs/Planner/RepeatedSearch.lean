import FullTextQuery.Binary64.Nearest
import FullTextQuery.Proofs.Database.Enumeration
import FullTextQuery.Proofs.Planner.Plan
import Mathlib.Logic.Function.Iterate

namespace FullTextQuery

/-!
# The search extension, several times

Extensions may hold the search extension more than once, and its hook more often than its
rules.  A rule that comes again claims nothing that the first one left, and a hook that
comes again finds the search already in front.  A planner that cannot tell two extensions
apart plans every query alike with both, so only the first registration counts.
-/

namespace LoweringRule

variable {scope : Scope} {e : Expr} {operands : List (Lowering RelExpr)}
  {default : Lowering RelExpr}

/-- What some rules leave is offered to the rules behind them. -/
theorem offer_append
    (first second : List LoweringRule) :
    offer scope e operands default (first ++ second) =
      offer scope e operands (offer scope e operands default second) first := by
  induction first with
  | nil => rfl
  | cons rule rest inductionHypothesis =>
      simp only [List.cons_append, offer, inductionHypothesis]

/-- The rule for search calls leaves nothing to itself. -/
theorem offer_lowerCall_again :
    offer scope e operands (offer scope e operands default [Search.lowerCall])
      [Search.lowerCall] =
    offer scope e operands default [Search.lowerCall] := by
  simp only [offer, Search.lowerCall]
  cases e.searchCall? with
  | none => simp only [pure_bind]
  | some call =>
      simp only [bind_assoc]
      refine bind_congr fun recorded => ?_
      split
      · rfl
      · simp only [bind_assoc, pure_bind]

/-- Repeated at the end of some rules, the rule for search calls does what it does once. -/
theorem offer_append_replicate_lowerCall
    (rules : List LoweringRule)
    (times : Nat) :
    offer scope e operands default (rules ++ List.replicate (times + 1) Search.lowerCall) =
      offer scope e operands default (rules ++ [Search.lowerCall]) := by
  rw [offer_append, offer_append]
  congr 1
  induction times with
  | zero => rfl
  | succ times inductionHypothesis =>
      rw [List.replicate_succ, ← List.singleton_append, offer_append, inductionHypothesis,
        offer_lowerCall_again]

end LoweringRule

namespace ResolutionRule

variable {scope : Scope} {node : RelExpr} {operands : List (Except Error RelExpr)}

/-- What some rules leave is offered to the rules behind them. -/
theorem offer_append
    (first second : List ResolutionRule) :
    offer scope node operands (first ++ second) = (do
      match ← offer scope node operands first with
      | some handled => return some handled
      | none => offer scope node operands second) := by
  induction first with
  | nil => rfl
  | cons rule rest inductionHypothesis =>
      simp only [List.cons_append, offer, inductionHypothesis, bind_assoc]
      refine bind_congr fun handled? => ?_
      cases handled? <;> rfl

/-- Repeated at the end of some rules, the rule for membership tests does what it does once. -/
theorem offer_append_replicate_keepMembership
    (rules : List ResolutionRule)
    (times : Nat) :
    offer scope node operands (rules ++ List.replicate (times + 1) Search.keepMembership) =
      offer scope node operands (rules ++ [Search.keepMembership]) := by
  have again :
      offer scope node operands (List.replicate (times + 1) Search.keepMembership) =
        offer scope node operands [Search.keepMembership] := by
    induction times with
    | zero => rfl
    | succ times inductionHypothesis =>
        rw [List.replicate_succ, offer, inductionHypothesis]
        simp only [offer, Search.keepMembership]
        split
        · simp only [bind_assoc, pure_bind]
        · rfl
  rw [offer_append, offer_append, again]

end ResolutionRule

namespace Search

/-- Steps that begin with a search are left as they are. -/
theorem eq_of_searchFirstFor
    {searches : List PlannedSearch}
    {steps after : Steps}
    (searching : steps.searchesFirst = true)
    (done : searchFirstFor searches steps = .ok after) :
    after = steps := by
  induction searches with
  | nil => exact (Except.ok.inj done).symm
  | cons search rest inductionHypothesis =>
      have same : steps.searchFirst (.ofSearch search) = steps := by
        cases steps with
        | rowsOnly rows => cases searching
        | searchThenRows earlier rows => rfl
      rw [searchFirstFor] at done
      split at done
      · exact inductionHypothesis (same ▸ done)
      · cases done

/-- Searches that are in front already can be put there again. -/
theorem searchFirstFor_again
    {searches : List PlannedSearch}
    {steps after : Steps}
    (done : searchFirstFor searches steps = .ok after) :
    searchFirstFor searches after = .ok after := by
  cases searches with
  | nil => rfl
  | cons search rest =>
      rw [searchFirstFor] at done
      split at done
      case isFalse => cases done
      case isTrue reads =>
        have searches : (steps.searchFirst (.ofSearch search)).searchesFirst = true := by
          cases steps <;> rfl
        obtain rfl := eq_of_searchFirstFor searches done
        have sameRows : (steps.searchFirst (.ofSearch search)).rowStep = steps.rowStep := by
          cases steps <;> rfl
        have sameSteps : (steps.searchFirst (.ofSearch search)).searchFirst (.ofSearch search) =
            steps.searchFirst (.ofSearch search) := by
          cases steps <;> rfl
        rw [searchFirstFor, sameRows, if_pos reads, sameSteps, done]

end Search

/-- Repeated at the end of some hooks, the hook that puts searches first does what it does once. -/
theorem PlanHook.showFilter_append_replicate_putFirst
    (hooks : List PlanHook)
    (times : Nat)
    (filter : LoweredFilter)
    (place : Nat)
    (steps : Steps) :
    showFilter (hooks ++ List.replicate (times + 1) Search.putFirst) filter place steps =
      showFilter (hooks ++ [Search.putFirst]) filter place steps := by
  have again : ∀ steps,
      showFilter (List.replicate (times + 1) Search.putFirst) filter place steps =
        Search.searchFirstFor filter.searches steps := by
    induction times with
    | zero => exact fun steps => bind_pure _
    | succ times inductionHypothesis =>
        intro steps
        rw [List.replicate_succ, showFilter, List.foldlM_cons]
        change (Search.searchFirstFor filter.searches steps >>=
          showFilter (List.replicate (times + 1) Search.putFirst) filter place) = _
        rw [funext inductionHypothesis]
        cases done : Search.searchFirstFor filter.searches steps with
        | error e => rfl
        | ok after => exact Search.searchFirstFor_again done
  rw [showFilter, showFilter, List.foldlM_append, List.foldlM_append]
  exact bind_congr fun between => (again between).trans (bind_pure _).symm

namespace Extensions

/-- Extensions that answer alike whatever they are asked. -/
structure Alike
    (first second : Extensions) :
    Prop where
  lowers : ∀ scope e operands default,
    LoweringRule.offer scope e operands default first.lowering =
      LoweringRule.offer scope e operands default second.lowering
  resolves : ∀ scope node operands,
    ResolutionRule.offer scope node operands first.resolution =
      ResolutionRule.offer scope node operands second.resolution
  shows : PlanHook.showFilter first.hooks = PlanHook.showFilter second.hooks

/--
Some extensions, the search extension a number of times behind them, and its hook some
further times.
-/
def withSearches
    (extensions : Extensions)
    (times extraHooks : Nat) :
    Extensions :=
  let registered := withSearch^[times] extensions
  { registered with
    hooks := registered.hooks ++ List.replicate extraHooks Search.putFirst }

/-- Each time the search extension is registered, its three pieces come at the ends. -/
theorem withSearch_iterate
    (extensions : Extensions)
    (times : Nat) :
    withSearch^[times] extensions =
      ⟨extensions.lowering ++ List.replicate times Search.lowerCall,
        extensions.resolution ++ List.replicate times Search.keepMembership,
        extensions.hooks ++ List.replicate times Search.putFirst⟩ := by
  induction times with
  | zero => simp
  | succ times inductionHypothesis =>
      rw [Function.iterate_succ_apply', inductionHypothesis, withSearch]
      simp only [List.replicate_succ', ← List.append_assoc]
      rfl

/-- With the search extension registered again, extensions answer as with it once. -/
theorem alike_withSearches
    (extensions : Extensions)
    (times extraHooks : Nat) :
    Alike (extensions.withSearches (times + 1) extraHooks) extensions.withSearch := by
  rw [withSearches, withSearch_iterate]
  constructor
  case lowers =>
    intro scope e operands default
    exact LoweringRule.offer_append_replicate_lowerCall extensions.lowering times
  case resolves =>
    intro scope node operands
    exact ResolutionRule.offer_append_replicate_keepMembership extensions.resolution times
  case shows =>
    have allHooks : extensions.hooks ++ List.replicate (times + 1) Search.putFirst ++
        List.replicate extraHooks Search.putFirst =
          extensions.hooks ++ List.replicate (times + extraHooks + 1) Search.putFirst := by
      rw [List.append_assoc, List.replicate_append_replicate, Nat.add_right_comm]
    funext filter place steps
    dsimp only
    rw [allHooks]
    exact PlanHook.showFilter_append_replicate_putFirst extensions.hooks _ filter place steps

variable {first second : Extensions} (alike : Alike first second)

include alike

/-- Expressions are lowered alike. -/
theorem Alike.lower_eq
    (scope : Scope)
    (e : Expr) :
    e.lower first.lowering scope = e.lower second.lowering scope := by
  induction e with
  | item name | literal value | parameter name | member source property =>
      simp only [Expr.lower, alike.lowers]
  | compare left op right leftSame rightSame | and left right leftSame rightSame
  | or left right leftSame rightSame =>
      simp only [Expr.lower, alike.lowers, leftSame, rightSame]
  | not operand operandSame =>
      simp only [Expr.lower, alike.lowers, operandSame]
  | call function args argsSame =>
      simp only [Expr.lower, alike.lowers, Expr.lowerAll_eq_map, List.map_congr_left argsSame]

/-- Relational expressions are resolved alike. -/
theorem Alike.resolve_eq
    (scope : Scope)
    (e : RelExpr) :
    e.resolve first.resolution scope = e.resolve second.resolution scope := by
  induction e with
  | member item property | column tableAlias name | literal value | parameter name =>
      simp only [RelExpr.resolve, RelExpr.settle, alike.resolves]
  | compare left op right leftSame rightSame | and left right leftSame rightSame
  | or left right leftSame rightSame =>
      simp only [RelExpr.resolve, RelExpr.settle, alike.resolves, leftSame, rightSame]
  | not operand operandSame | membership operand valueSet search operandSame =>
      simp only [RelExpr.resolve, RelExpr.settle, alike.resolves, operandSame]
  | function name args argsSame =>
      simp only [RelExpr.resolve, RelExpr.settle, alike.resolves, RelExpr.resolveAll_eq_map,
        List.map_congr_left argsSame]

end Extensions

namespace Planner

variable {model : Model} {first second : Extensions} (alike : first.Alike second)

section Halves

include alike

/-- Queries are lowered alike with extensions that answer alike. -/
theorem lowerQuery_congr
    (scope : Scope)
    (query : Query) :
    lowerQuery ⟨model, first⟩ scope query = lowerQuery ⟨model, second⟩ scope query := by
  have sameLower : lower ⟨model, first⟩ = lower ⟨model, second⟩ := by
    funext scope e
    exact alike.lower_eq scope e
  have sameColumns : ∀ earlier es,
      lowerColumns ⟨model, first⟩ scope earlier es =
        lowerColumns ⟨model, second⟩ scope earlier es := by
    intro earlier es
    induction es generalizing earlier with
    | nil => rfl
    | cons e rest inductionHypothesis =>
        simp only [lowerColumns, sameLower, inductionHypothesis]
  have sameProjection : lowerProjection ⟨model, first⟩ scope query =
      lowerProjection ⟨model, second⟩ scope query := by
    unfold lowerProjection
    split
    · rfl
    · exact sameColumns [] _
  have sameFilter : lowerFilter ⟨model, first⟩ = lowerFilter ⟨model, second⟩ := by
    unfold lowerFilter
    rw [sameLower]
  have sameJoin : lowerJoin ⟨model, first⟩ = lowerJoin ⟨model, second⟩ := by
    unfold lowerJoin
    rw [sameLower]
  have sameSortKey : lowerSortKey ⟨model, first⟩ = lowerSortKey ⟨model, second⟩ := by
    unfold lowerSortKey
    rw [sameLower]
  simp only [lowerQuery, sameFilter, sameJoin, sameProjection, sameSortKey]

/-- Lowered queries are resolved alike with extensions that answer alike. -/
theorem resolveQuery_congr
    (scope : Scope)
    (query : Query)
    (lowered : LoweredQuery)
    (searches : List PlannedSearch) :
    resolveQuery ⟨model, first⟩ scope query lowered searches =
      resolveQuery ⟨model, second⟩ scope query lowered searches := by
  have sameResolve : resolve ⟨model, first⟩ = resolve ⟨model, second⟩ := by
    funext scope e
    exact alike.resolve_eq scope e
  have sameFilter : resolveFilter ⟨model, first⟩ = resolveFilter ⟨model, second⟩ := by
    unfold resolveFilter
    rw [sameResolve]
  have sameJoin : resolveJoin ⟨model, first⟩ = resolveJoin ⟨model, second⟩ := by
    unfold resolveJoin
    rw [sameResolve]
  have sameColumn : resolveColumn ⟨model, first⟩ = resolveColumn ⟨model, second⟩ := by
    unfold resolveColumn
    rw [sameResolve]
  have sameTerm : resolveOrderTerm ⟨model, first⟩ = resolveOrderTerm ⟨model, second⟩ := by
    unfold resolveOrderTerm
    rw [sameResolve]
  simp only [resolveQuery, sameFilter, sameJoin, sameColumn, sameTerm]

/-- Queries are planned alike with extensions that answer alike. -/
theorem plan_congr
    (query : Query) :
    plan ⟨model, first⟩ query = plan ⟨model, second⟩ query := by
  have sameHooks : PlanHook.showFilters first.hooks = PlanHook.showFilters second.hooks := by
    funext place filters steps
    induction filters generalizing place steps with
    | nil => rfl
    | cons filter rest inductionHypothesis =>
        simp only [PlanHook.showFilters, alike.shows, inductionHypothesis]
  have sameDraft : draft ⟨model, first⟩ query = draft ⟨model, second⟩ query := by
    simp only [draft, lowerQuery_congr alike, resolveQuery_congr alike]
  simp only [plan, sameDraft, sameHooks]

end Halves

end Planner

/-- The searches of a plan: there is one at most, which is in front of all runs and asked once. -/
structure QueryPlan.SearchesAtMostOnce
    [NumeralReading]
    (plan : QueryPlan) :
    Prop where
  recorded : plan.searches.length ≤ 1
  inFront : plan.steps.search? = plan.searches.head?.map .ofSearch
  asked : ∀ {σ : Type} (database : Database σ) (parameters : Parameters),
    (database.recorded.run plan parameters).2.world.2.length ≤ 1

namespace Planner

/-- With the search extension alone, a plan searches once at most. -/
theorem searchesAtMostOnce_of_plan
    [NumeralReading]
    {model : Model}
    {query : Query}
    {plan : QueryPlan}
    (planned : (searching model).plan query = .ok plan) :
    plan.SearchesAtMostOnce := by
  obtain ⟨draft, parameters, drafted, _, rfl⟩ := plan_eq_ok.mp planned
  constructor
  case recorded =>
    rcases drafted.search_cases with ⟨_, isSearches, _⟩ | ⟨_, _, _, _, _, _, isSearches, _⟩ <;>
      simp [isSearches]
  case inFront =>
    cases isSearches : draft.searches <;> simp [steps, isSearches, Steps.search?]
  case asked =>
    intro σ database parameters
    rw [Database.run_recorded_world]
    exact Steps.length_calls_le_one _ _

/--
However often the search extension is registered on some extensions, and whatever number of
its hooks is put behind, a query has the plan or the error that it has with the search
extension registered once; and with no other extensions, the plan searches once at most.
-/
theorem plan_withSearches
    [NumeralReading]
    (model : Model)
    (extensions : Extensions)
    (query : Query)
    (times extraHooks : Nat) :
    Planner.plan ⟨model, extensions.withSearches (times + 1) extraHooks⟩ query =
        Planner.plan ⟨model, extensions.withSearch⟩ query ∧
      ∀ plan, Planner.plan ⟨model, Extensions.none.withSearches (times + 1) extraHooks⟩ query =
        .ok plan → plan.SearchesAtMostOnce := by
  refine ⟨plan_congr (extensions.alike_withSearches times extraHooks) query, ?_⟩
  intro plan planned
  rw [plan_congr (Extensions.none.alike_withSearches times extraHooks)] at planned
  exact searchesAtMostOnce_of_plan planned

/-- Registered three times and with two more hooks, the search extension still searches once. -/
theorem searchesAtMostOnce_ordersOfFound :
    ∃ plan, Planner.plan ⟨.shop, Extensions.none.withSearches 3 2⟩ .ordersOfFound = .ok plan ∧
      plan.SearchesAtMostOnce := by
  have isPlanned : (Planner.plan ⟨.shop, Extensions.none.withSearches 3 2⟩
      .ordersOfFound).toOption.isSome := by
    decide +kernel
  cases planned : Planner.plan ⟨.shop, Extensions.none.withSearches 3 2⟩ .ordersOfFound with
  | error e =>
      rw [planned] at isPlanned
      cases isPlanned
  | ok plan =>
      exact ⟨plan, rfl, (plan_withSearches .shop .none .ordersOfFound 2 2).2 plan planned⟩

end Planner

end FullTextQuery
