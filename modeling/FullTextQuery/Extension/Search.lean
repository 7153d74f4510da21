import FullTextQuery.Extension.Basic

namespace FullTextQuery

/-!
# The search extension

Three pieces make full-text filters work.  A lowering rule turns the call
`search(item, text)` into a membership test of the item's key in a value set
and puts the search on record.  A resolution rule lets membership tests through,
with their operands resolved.  A hook puts the search in front of the steps of
the run.
-/

namespace Search

/-- The parameter that holds the keys found for a search. -/
def keyParameter
    (id : SearchId) :
    String :=
  "search_ids_" ++ Decimal.ofInt id

/-- What a search needs from the entity of its item: the key property and the index. -/
def keyAndIndex
    (entity : Entity) :
    Except Error (Property × String) := do
  let key ← entity.singleKey
  match key.kind with
  | .real => .error (.plan (.unsupportedKeyKind key.name entity.name key.kind))
  | .text | .integer =>
      match entity.searchIndex? with
      | some index => return (key, index)
      | none => .error (.plan (.noSearchIndex entity.name))

/-- Turns a search call into a membership test and records the search; a query has at most one. -/
def lowerCall : LoweringRule :=
  fun scope e _ => do
    match e.searchCall? with
    | none => return none
    | some (item, phrase) =>
        if !(← Lowering.searches).isEmpty then
          throw (.plan .secondSearchPredicate)
        let found ← Lowering.ofExcept ((scope.item item).mapError .plan)
        let (key, index) ← Lowering.ofExcept (keyAndIndex found.entity)
        let id ← Lowering.nextId
        Lowering.record
          { id
            parameter := keyParameter id
            phrase
            index
            entity := found.entity.name
            keyName := key.name
            keyKind := key.kind }
        return some (.membership (.member item key.name) (keyParameter id) id)

/-- Lets membership tests through with a resolved operand. -/
def keepMembership : ResolutionRule :=
  fun _ node operands =>
    match node, operands with
    | .membership _ valueSet search, [operand] => do
        return some (.membership (← operand) valueSet search)
    | _, _ => .ok none

/-- Search first, for the searches of a filter; the statement must read what they find. -/
def searchFirstFor : List PlannedSearch → Steps → Except Error Steps
  | [], steps => .ok steps
  | search :: searches, steps =>
      if steps.rowStep.readsValueSet search.parameter then
        searchFirstFor searches (steps.searchFirst (.ofSearch search))
      else
        .error (.invariant (.searchNotRead search.id search.parameter))

/-- Puts the search of a filter in front of the steps. -/
def putFirst : PlanHook :=
  fun filter _ steps => searchFirstFor filter.searches steps

end Search

namespace Extensions

/-- The search extension alone. -/
def search : Extensions where
  lowering := [Search.lowerCall]
  resolution := [Search.keepMembership]
  hooks := [Search.putFirst]

/-- Some extensions and the search extension behind them. -/
def withSearch
    (extensions : Extensions) :
    Extensions :=
  extensions ++ search

end Extensions

end FullTextQuery
