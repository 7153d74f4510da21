import FullTextQuery.Plan.Hook
import FullTextQuery.Relational.Resolution

namespace FullTextQuery

/-!
# Extensions

A planner asks its extensions at three places: when an expression is lowered, when a
node is resolved, and when the steps of a run are put together.
-/

/-- What a planner consults beside its own rules, each list in order. -/
structure Extensions where
  lowering : List LoweringRule := []
  resolution : List ResolutionRule := []
  hooks : List PlanHook := []

namespace Extensions

/-- No extensions. -/
def none : Extensions :=
  {}

/-- All that the first consults, followed by all that the second does. -/
def append
    (first second : Extensions) :
    Extensions where
  lowering := first.lowering ++ second.lowering
  resolution := first.resolution ++ second.resolution
  hooks := first.hooks ++ second.hooks

instance : Append Extensions :=
  ⟨append⟩

end Extensions

end FullTextQuery
