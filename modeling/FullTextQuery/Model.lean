import FullTextQuery.Error
import FullTextQuery.NameMap

namespace FullTextQuery

/-!
# The entity model

Which tables hold which entities, which columns hold their properties, which
properties make the primary key, and which search index knows their documents.
A model has the first valid entity that was added under a name.
-/

/-- A property of an entity and the column that holds it. -/
structure Property where
  name : String
  kind : ScalarKind
  column : String := name
  deriving Repr, DecidableEq

/-- An entity and the table that holds it.  Several key names make a composite key. -/
structure Entity where
  name : String
  table : String := name
  properties : List Property := []
  primaryKey : List String := []
  searchIndex? : Option String := none
  deriving Repr, DecidableEq

/-- Whether a text is a letter or an underscore followed by letters, digits and underscores. -/
def isIdentifier
    (name : String) :
    Bool :=
  match name.toList with
  | [] => false
  | c :: rest => (c.isAlpha || c == '_') && rest.all fun d => d.isAlphanum || d == '_'

/-- Refuse a name that is no identifier. -/
def requireIdentifier
    (role : NameRole)
    (name : String) :
    Except ConfigError Unit :=
  if isIdentifier name then .ok () else .error (.invalidName role name)

namespace Entity

/-- The property with a name. -/
def property?
    (entity : Entity)
    (name : String) :
    Option Property :=
  entity.properties.find? (·.name == name)

/-- Refuse a property with invalid names, or with a name that another property has too. -/
def checkProperty
    (entity : Entity)
    (property : Property) :
    Except ConfigError Unit := do
  requireIdentifier .property property.name
  requireIdentifier .column property.column
  if 1 < entity.properties.countP (·.name == property.name) then
    .error (.propertyDeclaredTwice property.name entity.name)

/-- Refuse a key name that is no property. -/
def checkKey
    (entity : Entity)
    (key : String) :
    Except ConfigError Unit :=
  if (entity.property? key).isSome then .ok () else .error (.keyNotDeclared key entity.name)

/-- Refuse an entity that is not well formed. -/
def check
    (entity : Entity) :
    Except ConfigError Unit := do
  requireIdentifier .entity entity.name
  requireIdentifier .table entity.table
  entity.properties.forM entity.checkProperty
  entity.primaryKey.forM entity.checkKey

/-- The single key property; an entity without a key or with a composite one has none. -/
def singleKey
    (entity : Entity) :
    Except Error Property :=
  match entity.primaryKey with
  | [] => .error (.plan (.noPrimaryKey entity.name))
  | [key] =>
      match entity.property? key with
      | some property => .ok property
      | none => .error (.invariant (.missingKeyProperty key entity.name))
  | keys => .error (.plan (.compositePrimaryKey entity.name keys))

end Entity

/-- The entities that are known, by name. -/
structure Model where
  entities : NameMap Entity := {}
  deriving Repr, DecidableEq

namespace Model

/-- The model without entities. -/
def empty : Model :=
  {}

/-- The entity with a name, if it is known. -/
def entity?
    (model : Model)
    (name : String) :
    Option Entity :=
  model.entities.get? name

/-- The entity with a name. -/
def entity
    (model : Model)
    (name : String) :
    Except PlanError Entity :=
  match model.entity? name with
  | some entity => .ok entity
  | none => .error (.unknownEntity name)

/--
What adding an entity comes to: the one under its name, whether it was there before, and
the model.
-/
structure Addition where
  entity : Entity
  existed : Bool
  model : Model
  deriving Repr, DecidableEq

/-- Add a valid entity unless there is one of its name. -/
def add
    (model : Model)
    (entity : Entity) :
    Except ConfigError Addition := do
  entity.check
  match model.entity? entity.name with
  | some earlier => return ⟨earlier, true, model⟩
  | none => return ⟨entity, false, ⟨model.entities.insert entity.name entity⟩⟩

/-- The model with some entities, added one after another. -/
def ofEntities
    (entities : List Entity) :
    Except ConfigError Model :=
  entities.foldlM (fun model entity => (·.model) <$> model.add entity) empty

/-- The number of entities. -/
def size
    (model : Model) :
    Nat :=
  model.entities.size

end Model

end FullTextQuery
