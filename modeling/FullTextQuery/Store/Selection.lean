import FullTextQuery.Sql.Reader
import FullTextQuery.Store.Scalar

namespace FullTextQuery.Store

/-!
# Selecting rows

A selection is made of the rows of the joined tables, in the order of the
tables, on which every condition holds.  Without sort terms the rows come in that order and
nothing behind the last wanted row is looked at.  With sort terms, rows that
compare equal keep that order, and of a limited number of rows only those are
computed that are not already behind the wanted ones.
-/

/-- A direction and an expression to sort by. -/
structure SortScalar where
  scalar : Scalar
  descending : Bool
  deriving Repr, DecidableEq

/-- A selection whose names have been found. -/
structure Search where
  sources : List BoundTable
  results : List Scalar
  conditions : List Scalar
  ordering : List SortScalar
  limit? : Option Nat
  deriving Repr, DecidableEq

/-- The greatest height of a term. -/
def maxHeight : Nat := 1000

/-- The greatest number of joined tables. -/
def maxTables : Nat := 64

/--
The place of a result column that a sort term names by a number; a conjunction
that is false in any case counts as the number zero.
-/
def resultPlace? : Sql.Term → Option Int
  | .literal (.integer n) => if n.toInt.natAbs < 0x80000000 then some n.toInt else none
  | .and left right => if (Sql.Term.and left right).isNever then some 0 else none
  | _ => none

namespace Search

/-- Find what a sort term sorts by. -/
def sortScalar
    (sources : List BoundTable)
    (bindings : Bindings)
    (results : List Scalar)
    (sort : Sql.SortTerm) :
    Except StoreError SortScalar :=
  match resultPlace? sort.term with
  | some place =>
      if place < 1 then
        .error .orderTermOutOfRange
      else
        match results[(place - 1).toNat]? with
        | some scalar => .ok ⟨scalar, sort.descending⟩
        | none => .error .orderTermOutOfRange
  | none => do
      return ⟨← Scalar.ofTerm sources bindings sort.term, sort.descending⟩

/-- Find a table under its alias. -/
def boundTable
    (store : Store)
    (ref : AliasedTable) :
    Except StoreError BoundTable := do
  return ⟨ref.tableAlias, ← store.table ref.table⟩

/-- Find the names of a selection. -/
def ofSelection
    (store : Store)
    (bindings : Bindings)
    (selection : Sql.Selection) :
    Except StoreError Search := do
  if selection.terms.any fun term => maxHeight < term.height then
    .error .tooDeep
  if maxTables < selection.tables.length then
    .error .tooManyTables
  let sources ← selection.tables.mapM (boundTable store)
  let find := Scalar.ofTerm sources bindings
  let results ← selection.results.mapM fun result => find result.term
  let filters ← selection.filter?.toList.mapM find
  let joins ← selection.joins.mapM fun join => find join.on
  let ordering ← selection.ordering.mapM (sortScalar sources bindings results)
  return ⟨sources, results, (filters ++ joins).flatMap Scalar.conjuncts, ordering,
    selection.limit?⟩

/-- The rows of a table with their numbers. -/
def numberedRows
    (table : Table) :
    List NumberedRow :=
  table.rows.zipIdx.map fun entry => ⟨entry.2 + 1, entry.1⟩

/-- The joined rows of some tables, the last table varying fastest. -/
def joinedRows : List BoundTable → List JoinedRow
  | [] => [[]]
  | source :: sources =>
      (numberedRows source.table).flatMap fun row => (joinedRows sources).map (row :: ·)

/-- Whether all conditions hold on a row; the first that does not decides. -/
def allHold
    [NumeralReading]
    (row : JoinedRow) :
    List Scalar → Except StoreError Bool
  | [] => .ok true
  | condition :: conditions => do
      if ← condition.holds row false then allHold row conditions else return false

/-- The values of expressions on a row. -/
def values
    [NumeralReading]
    (row : JoinedRow)
    (scalars : List Scalar) :
    Except StoreError (List Cell) :=
  scalars.mapM (Scalar.value row)

/-- The first results in the order of the rows. -/
def firstRows
    [NumeralReading]
    (search : Search) :
    (limit? : Option Nat) → List JoinedRow → Except StoreError (List (List Cell))
  | some 0, _ => .ok []
  | _, [] => .ok []
  | limit?, row :: rows => do
      if ← allHold row search.conditions then
        let cells ← values row search.results
        let others ← firstRows search (limit?.map (· - 1)) rows
        return cells :: others
      else
        firstRows search limit? rows

/-- A result and what it is sorted by. -/
structure Ranked where
  key : List Cell
  cells : List Cell
  deriving Repr, DecidableEq

/-- The order of two keys, term by term. -/
def compareKeys : List SortScalar → List Cell → List Cell → Ordering
  | sort :: sorts, a :: as, b :: bs =>
      match if sort.descending then (a.compare b).swap else a.compare b with
      | .eq => compareKeys sorts as bs
      | decided => decided
  | _, _, _ => .eq

/-- Put a result behind those that are not greater. -/
def insertRanked
    (ordering : List SortScalar)
    (ranked : Ranked) :
    List Ranked → List Ranked
  | [] => [ranked]
  | other :: others =>
      if compareKeys ordering ranked.key other.key = .lt then
        ranked :: other :: others
      else
        other :: insertRanked ordering ranked others

/-- Whether a result with a key would be behind the wanted ones. -/
def isBehind
    (search : Search)
    (kept : List Ranked)
    (key : List Cell) :
    Bool :=
  match search.limit?, kept.getLast? with
  | some limit, some last =>
      decide (limit ≤ kept.length) && compareKeys search.ordering key last.key != .lt
  | _, _ => false

/-- The wanted ones among ranked results. -/
def wanted
    (search : Search)
    (ranked : List Ranked) :
    List Ranked :=
  match search.limit? with
  | some limit => ranked.take limit
  | none => ranked

/-- The wanted results in the order of their keys, beside some kept already. -/
def rankedRows
    [NumeralReading]
    (search : Search) :
    (kept : List Ranked) → List JoinedRow → Except StoreError (List Ranked)
  | kept, [] => .ok kept
  | kept, row :: rows => do
      if ← allHold row search.conditions then
        let key ← values row (search.ordering.map (·.scalar))
        if isBehind search kept key then
          rankedRows search kept rows
        else
          let cells ← values row search.results
          rankedRows search (wanted search (insertRanked search.ordering ⟨key, cells⟩ kept)) rows
      else
        rankedRows search kept rows

/-- The results. -/
def rows
    [NumeralReading]
    (search : Search) :
    Except StoreError (List (List Cell)) := do
  if search.limit?.any fun limit => decide (0x8000000000000000 ≤ limit) then
    .error .limitNotInteger
  else if search.limit? = some 0 then
    return []
  else if ← allHold [] (search.conditions.filter Scalar.isConstant) then
    let joined := joinedRows search.sources
    match search.ordering with
    | [] => firstRows search search.limit? joined
    | _ :: _ => return (← rankedRows search [] joined).map (·.cells)
  else
    return []

end Search

variable [NumeralReading]

/-- Find the names of a statement text. -/
def search
    (store : Store)
    (sql : String)
    (bindings : Bindings) :
    Except StoreError Search :=
  match Sql.prepare? sql with
  | none => .error .invalidStatement
  | some prepared => do
      let search ← Search.ofSelection store bindings prepared.selection
      match bindings.names.find? fun name => !prepared.parameters.contains name with
      | some name => .error (.unknownParameter name)
      | none => return search

/-- The rows that a statement text selects. -/
def select
    (store : Store)
    (sql : String)
    (bindings : Bindings) :
    Except StoreError (List (List Cell)) := do
  let search ← store.search sql bindings
  search.rows

end FullTextQuery.Store
