import FullTextQuery.Error
import FullTextQuery.Plan.Steps

namespace FullTextQuery

/-!
# Plan hooks

While the steps of a run are put together, hooks look at one filter after the other
and may reshape the steps.
-/

/-- A filter as written, its relational form, and the searches that its lowering put on record. -/
structure LoweredFilter where
  predicate : Expr
  lowered : RelExpr
  searches : List PlannedSearch
  deriving Repr, DecidableEq

/-- Looks at a filter, its place and the steps so far, and may reshape the steps. -/
abbrev PlanHook : Type :=
  LoweredFilter → Nat → Steps → Except Error Steps

namespace PlanHook

/-- Show one filter to hooks in order. -/
def showFilter
    (hooks : List PlanHook)
    (filter : LoweredFilter)
    (place : Nat)
    (steps : Steps) :
    Except Error Steps :=
  hooks.foldlM (fun earlier hook => hook filter place earlier) steps

/-- Show every filter to hooks; `place` is that of the first one. -/
def showFilters
    (hooks : List PlanHook)
    (place : Nat) :
    List LoweredFilter → Steps → Except Error Steps
  | [], steps => .ok steps
  | filter :: filters, steps => do
      let reshaped ← showFilter hooks filter place steps
      showFilters hooks (place + 1) filters reshaped

end PlanHook

end FullTextQuery
