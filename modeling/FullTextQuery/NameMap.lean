namespace FullTextQuery

/-!
# Values under names

A map from names to values that keeps its entries in the order in which their
names were first added.  Replacing a value does not move its entry.
-/

/-- Values under names, each name once. -/
structure NameMap (α : Type) where
  entries : List (String × α) := []
  deriving Repr, DecidableEq

namespace NameMap

/-- The map without entries. -/
def empty : NameMap α :=
  ⟨[]⟩

instance : Inhabited (NameMap α) :=
  ⟨empty⟩

/-- The value under a name. -/
def get?
    (map : NameMap α)
    (name : String) :
    Option α :=
  map.entries.lookup name

/-- Whether there is a value under a name. -/
def contains
    (map : NameMap α)
    (name : String) :
    Bool :=
  (map.get? name).isSome

/-- Replace the value of the first entry with a name. -/
def replaceFirst
    (name : String)
    (value : α) :
    List (String × α) → List (String × α)
  | [] => []
  | (other, old) :: rest =>
      if name = other then (other, value) :: rest
      else (other, old) :: replaceFirst name value rest

/-- Put a value under a name, in place of an earlier one. -/
def insert
    (map : NameMap α)
    (name : String)
    (value : α) :
    NameMap α :=
  if map.contains name then
    ⟨replaceFirst name value map.entries⟩
  else
    ⟨map.entries ++ [(name, value)]⟩

/-- Remove the entry of a name. -/
def erase
    (map : NameMap α)
    (name : String) :
    NameMap α :=
  ⟨map.entries.filter fun entry => entry.1 ≠ name⟩

/-- The names, in the order in which they were first added. -/
def names
    (map : NameMap α) :
    List String :=
  map.entries.map (·.1)

/-- The number of names. -/
def size
    (map : NameMap α) :
    Nat :=
  map.entries.length

/-- The map with some entries, of which the later ones win. -/
def ofList
    (entries : List (String × α)) :
    NameMap α :=
  entries.foldl (fun map entry => map.insert entry.1 entry.2) empty

end NameMap

end FullTextQuery
