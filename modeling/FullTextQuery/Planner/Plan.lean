import FullTextQuery.Planner.Draft
import FullTextQuery.Sql.Writer

namespace FullTextQuery

/-!
# Plans

The plan of a query begins with the row step of its statement, and the hooks are
shown every filter.  A last check makes sure that every value set which the
statement reads comes from the search step.
-/

/-- The plan of a query: the steps of a run and the searches they come from. -/
structure QueryPlan where
  steps : Steps
  searches : List PlannedSearch
  deriving Repr, DecidableEq

namespace QueryPlan

/-- The text of the statement. -/
def sql
    (plan : QueryPlan) :
    String :=
  plan.steps.rowStep.sql

/-- The parameters of the statement. -/
def parameters
    (plan : QueryPlan) :
    List StatementParameter :=
  plan.steps.rowStep.parameters

/-- The columns of the result. -/
def columns
    (plan : QueryPlan) :
    List ResultColumn :=
  plan.steps.rowStep.columns

/-- One line that names the steps of a run. -/
def summary
    (plan : QueryPlan) :
    String :=
  plan.steps.summary

end QueryPlan

namespace Steps

/-- Whether the search step finds the value set of a name. -/
def finds
    (steps : Steps)
    (name : String) :
    Bool :=
  match steps.search? with
  | some search => search.parameter == name
  | none => false

/--
Refuse a predicate with more than one membership test, and steps that read a value
set which their search does not find.
-/
def checkValueSets
    (steps : Steps)
    (predicate? : Option RelExpr) :
    Except InvariantError Unit := do
  let memberships := match predicate? with
    | some predicate => predicate.memberships
    | none => []
  if 1 < memberships.length then
    .error (.manyMemberships memberships.length)
  match memberships with
  | test :: _ =>
      if !steps.finds test.parameter then
        .error (.testWithoutSearch test.search test.parameter)
  | [] => pure ()
  match steps.rowStep.parameters.find? fun parameter =>
      parameter.supplier == .search && !steps.finds parameter.name with
  | some parameter => .error (.parameterWithoutSearch parameter.name)
  | none => pure ()

end Steps

namespace Planner

/-- The plan of a query. -/
def plan
    (planner : Planner)
    (query : Query) :
    Except Error QueryPlan := do
  let draft ← planner.draft query
  let written ← draft.statement.write
  let start : Steps := .rowsOnly ⟨written.text, written.parameters, draft.columns⟩
  let steps ← PlanHook.showFilters planner.extensions.hooks 0 draft.filters start
  (steps.checkValueSets draft.statement.predicate?).mapError .invariant
  return ⟨steps, draft.searches⟩

end Planner

end FullTextQuery
