import FullTextQuery.Error
import FullTextQuery.NameMap

namespace FullTextQuery

/-!
# Run contexts

What a single run knows: the values that the caller supplied, and the value sets that
searches have found.
-/

/-- The values that a caller supplies, by name. -/
abbrev Parameters : Type :=
  NameMap Value

/-- The values of the caller and the value sets found so far. -/
structure RunContext where
  parameters : Parameters
  valueSets : NameMap (List Value) := .empty
  deriving Repr, DecidableEq

namespace RunContext

/-- The context at the beginning of a run. -/
def start
    (parameters : Parameters) :
    RunContext :=
  { parameters }

/-- The value that the caller supplied under a name. -/
def supplied
    (context : RunContext)
    (name : String) :
    Except RunError Value :=
  match context.parameters.get? name with
  | some value => .ok value
  | none => .error (.missingParameter name)

/-- Put a value set under a name, in place of an earlier one. -/
def putSet
    (context : RunContext)
    (name : String)
    (values : List Value) :
    RunContext :=
  { context with valueSets := context.valueSets.insert name values }

/-- The value set under a name. -/
def valueSet
    (context : RunContext)
    (name : String) :
    Except InvariantError (List Value) :=
  match context.valueSets.get? name with
  | some values => .ok values
  | none => .error (.setReadBeforeFound name)

end RunContext

end FullTextQuery
