import FullTextQuery.Model
import FullTextQuery.Query.Basic

namespace FullTextQuery

/-!
# Scopes

The item variables that the sources of a query declare, each with the entity it
ranges over.
-/

/-- An item variable in scope: its alias in the statement and the entity it ranges over. -/
structure ScopeItem where
  tableAlias : String
  entity : Entity
  deriving Repr, DecidableEq

/-- The item variables of a query over a model. -/
structure Scope where
  model : Model
  items : NameMap ScopeItem
  deriving Repr, DecidableEq

namespace Scope

/-- Bring a source into scope. -/
def add
    (scope : Scope)
    (source : Source) :
    Except PlanError Scope := do
  let entity ← scope.model.entity source.entity
  if scope.items.contains source.item then
    .error (.itemDeclaredTwice source.item)
  else
    return { scope with items := scope.items.insert source.item ⟨source.item, entity⟩ }

/-- Bring every source of a query into scope. -/
def ofQuery
    (model : Model)
    (query : Query) :
    Except PlanError Scope :=
  query.sources.foldlM add ⟨model, .empty⟩

/-- What an item variable stands for. -/
def item
    (scope : Scope)
    (name : String) :
    Except PlanError ScopeItem :=
  match scope.items.get? name with
  | some found => .ok found
  | none => .error (.unknownItem name)

end Scope

end FullTextQuery
