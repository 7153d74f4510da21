import FullTextQuery.Error
import FullTextQuery.Store.Comparison

namespace FullTextQuery

namespace Store

/-!
# Tables

A table has columns and rows in the order in which they were inserted.  Table
and column names are found without regard to the case of ASCII letters.
-/

/-- Whether two names are the same but for the case of ASCII letters. -/
def sameName
    (a b : String) :
    Bool :=
  a.toList.map Char.toLower == b.toList.map Char.toLower

/-- A column. -/
structure Column where
  name : String
  affinity : Affinity
  deriving Repr, DecidableEq

/-- A table. -/
structure Table where
  name : String
  columns : List Column
  rows : List (List Cell) := []
  deriving Repr, DecidableEq

namespace Table

/-- The first column whose name an earlier column has. -/
def duplicateColumn? : List Column → Option Column
  | [] => none
  | column :: rest =>
      match rest.find? fun other => sameName column.name other.name with
      | some other => some other
      | none => duplicateColumn? rest

/-- The cells of a row as the columns of a table store them. -/
def storedRow
    [NumeralReading]
    (columns : List Column)
    (cells : List Cell) :
    List Cell :=
  List.zipWith (fun column cell => column.affinity.store cell) columns cells

/-- Add a row, which must have a cell for every column. -/
def insertRow
    [NumeralReading]
    (table : Table)
    (cells : List Cell) :
    Except StoreError Table :=
  if cells.length = table.columns.length then
    .ok { table with rows := table.rows ++ [storedRow table.columns cells] }
  else
    .error (.wrongCellCount table.name)

end Table

end Store

/-- The tables of a store. -/
structure Store where
  tables : List Store.Table := []
  deriving Repr, DecidableEq

namespace Store

/-- The store without tables. -/
def empty : Store :=
  {}

/-- The table with a name. -/
def table?
    (store : Store)
    (name : String) :
    Option Table :=
  store.tables.find? fun table => sameName table.name name

/-- The table with a name, which must be there. -/
def table
    (store : Store)
    (name : String) :
    Except StoreError Table :=
  match store.table? name with
  | some table => .ok table
  | none => .error (.noSuchTable name)

/-- Put a table in the place of the table with its name. -/
def replace
    (store : Store)
    (table : Table) :
    Store :=
  ⟨store.tables.map fun other => if sameName other.name table.name then table else other⟩

/-- Add a table without rows. -/
def create
    (store : Store)
    (name : String)
    (columns : List Column) :
    Except StoreError Store :=
  if (store.table? name).isSome then
    .error (.tableExists name)
  else if columns.isEmpty then
    .error (.noColumns name)
  else
    match Table.duplicateColumn? columns with
    | some column => .error (.duplicateColumn column.name)
    | none => .ok ⟨store.tables ++ [{ name, columns }]⟩

/-- Add a row to a table. -/
def insertRow
    [NumeralReading]
    (store : Store)
    (name : String)
    (cells : List Cell) :
    Except StoreError Store := do
  let table ← store.table name
  let table ← table.insertRow cells
  return store.replace table

/-- Remove the rows of a table. -/
def clear
    (store : Store)
    (name : String) :
    Except StoreError Store := do
  let table ← store.table name
  return store.replace { table with rows := [] }

/-- Remove a table. -/
def drop
    (store : Store)
    (name : String) :
    Except StoreError Store := do
  let _ ← store.table name
  return ⟨store.tables.filter fun table => !sameName table.name name⟩

end Store

end FullTextQuery
