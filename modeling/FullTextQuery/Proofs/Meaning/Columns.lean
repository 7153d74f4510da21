import FullTextQuery.Proofs.Meaning.Basic
import FullTextQuery.Proofs.Store.Names

namespace FullTextQuery

/-!
# The columns of members and keys

A qualified column of a statement is looked up without regard to the case of
letters, so it might be a column of another item.  Where every table has the
columns that its entity declares, a lookup that succeeds finds the column of the
item itself, and a key that is found there is stored as its kind asks for.
-/

namespace Store

/-- Whether a table has a column for each property of an entity, with cells of its kind. -/
structure Table.Holds
    [NumeralReading]
    (table : Table)
    (entity : Entity) :
    Prop where
  stored : table.Stored
  columns : ∀ property ∈ entity.properties,
    ∃ column ∈ table.columns, sameName column.name property.column = true
  cells : ∀ property ∈ entity.properties, ∀ row ∈ table.rows, ∀ entry ∈ table.columns.zip row,
    sameName entry.1.name property.column = true → property.kind.holds entry.2 = true

/-- The columns with a name have a place in their table. -/
theorem exists_of_mem_columnsNamed
    {place : Nat}
    {source : BoundTable}
    {name : String}
    {ref : ColumnRef}
    (isNamed : ref ∈ columnsNamed place source name) :
    ∃ column index, source.table.columns[index]? = some column ∧
      sameName column.name name = true ∧ ref = ⟨place, some index, column.affinity⟩ := by
  obtain ⟨⟨column, index⟩, isColumn, rfl⟩ := List.mem_map.mp isNamed
  obtain ⟨isColumn, isSame⟩ := List.mem_filter.mp isColumn
  exact ⟨column, index, List.mem_zipIdx_iff_getElem?.mp isColumn, isSame, rfl⟩

/-- A lookup that succeeds finds the only column of any source that has one. -/
theorem head?_columnsNamed_of_findColumn
    {sources : List (BoundTable × Nat)}
    {entry : BoundTable × Nat}
    {name : String}
    {ref : ColumnRef}
    (found : findColumn sources name = .ok ref)
    (isSource : entry ∈ sources)
    (hasColumn : ∃ column ∈ entry.1.table.columns, sameName column.name name = true) :
    (columnsNamed entry.2 entry.1 name).head? = some ref := by
  obtain ⟨column, isColumn, isSame⟩ := hasColumn
  have nonempty : columnsNamed entry.2 entry.1 name ≠ [] := by
    obtain ⟨index, isPlace⟩ := List.mem_iff_getElem?.mp isColumn
    refine List.ne_nil_of_mem (List.mem_map_of_mem (a := (column, index)) ?_)
    exact List.mem_filter.mpr ⟨List.mem_zipIdx_iff_getElem?.mpr isPlace, isSame⟩
  have subset : ∀ other ∈ columnsNamed entry.2 entry.1 name,
      other ∈ sources.flatMap fun entry => columnsNamed entry.2 entry.1 name :=
    fun other isOther => List.mem_flatMap.mpr ⟨entry, isSource, isOther⟩
  obtain ⟨first, others, shape⟩ := List.exists_cons_of_ne_nil nonempty
  have isFirst := subset first (by simp [shape])
  unfold findColumn at found
  split at found
  · rename_i only same
    obtain rfl : only = ref := Except.ok.inj found
    rw [same, List.mem_singleton] at isFirst
    rw [shape, isFirst, List.head?_cons]
  · cases found
  · rename_i nothing
    rw [nothing] at isFirst
    exact absurd isFirst List.not_mem_nil

/-- A joined row has a row of each table. -/
theorem Search.forall₂_of_mem_joinedRows
    {sources : List BoundTable}
    {row : JoinedRow}
    (isRow : row ∈ joinedRows sources) :
    List.Forall₂ (fun source numbered => numbered.cells ∈ source.table.rows) sources row := by
  induction sources generalizing row with
  | nil =>
      obtain rfl : row = [] := by simpa [joinedRows] using isRow
      exact .nil
  | cons source sources inductionHypothesis =>
      obtain ⟨first, isFirst, others⟩ := List.mem_flatMap.mp isRow
      obtain ⟨rest, isRest, rfl⟩ := List.mem_map.mp others
      obtain ⟨entry, isEntry, rfl⟩ := List.mem_map.mp isFirst
      refine .cons ?_ (inductionHypothesis isRest)
      exact (List.mem_zipIdx' (i := entry.2) isEntry).2 ▸ List.getElem_mem _

/-- What is stored under a property is a cell of its kind, as its column stores it. -/
theorem Table.Holds.cell
    [NumeralReading]
    {table : Table}
    {entity : Entity}
    {property : Property}
    {cells : List Cell}
    {column : Column}
    {index : Nat}
    (holds : table.Holds entity)
    (declared : property ∈ entity.properties)
    (isRow : cells ∈ table.rows)
    (isColumn : table.columns[index]? = some column)
    (isSame : sameName column.name property.column = true) :
    property.kind.holds (cells[index]?.getD .null) = true ∧
      ∃ given, cells[index]?.getD .null = column.affinity.store given := by
  obtain ⟨given, stored⟩ := holds.stored cells isRow
  cases isCell : cells[index]? with
  | none => exact ⟨by cases property.kind <;> rfl, .null, by cases column.affinity <;> rfl⟩
  | some cell =>
      have isEntry : (column, cell) ∈ table.columns.zip cells :=
        List.mem_iff_getElem?.mpr ⟨index, List.getElem?_zip_eq_some.mpr ⟨isColumn, isCell⟩⟩
      refine ⟨holds.cells property declared cells isRow _ isEntry isSame, ?_⟩
      rw [stored, Table.storedRow, List.getElem?_zipWith_eq_some] at isCell
      obtain ⟨other, value, isOther, _, isStored⟩ := isCell
      obtain rfl : column = other := Option.some.inj (isColumn.symm.trans isOther)
      exact ⟨value, isStored.symm⟩

end Store

namespace Interpretation

open Store

variable [NumeralReading]

/-- Whether the tables of the items hold what the entities of the items declare. -/
def Agrees
    (i : Interpretation) :
    Prop :=
  ∀ source ∈ i.query.sources, ∀ entity ∈ i.model.entity? source.entity,
    ∀ table ∈ i.store.table? entity.table, table.Holds entity

/-- Whether every item has a table. -/
def Complete
    (i : Interpretation) :
    Prop :=
  List.Forall₂ (fun source bound => i.bound? source = some bound) i.query.sources i.tables

variable {i : Interpretation} {entity : Entity} {item : String}

/-- Tables whose rows are as their columns store them hold what the entities declare. -/
theorem agrees_of_stored
    (checked : ∀ source ∈ i.query.sources, ∀ entity ∈ i.model.entity? source.entity,
      ∀ table ∈ i.store.table? entity.table,
        (∀ row ∈ table.rows, row = Table.storedRow table.columns row) ∧
        (∀ property ∈ entity.properties,
          ∃ column ∈ table.columns, sameName column.name property.column = true) ∧
        ∀ property ∈ entity.properties, ∀ row ∈ table.rows, ∀ entry ∈ table.columns.zip row,
          sameName entry.1.name property.column = true →
            property.kind.holds entry.2 = true) :
    i.Agrees := by
  intro source isSource entity known table isTable
  obtain ⟨stored, columns, cells⟩ := checked source isSource entity known table isTable
  exact ⟨fun row isRow => ⟨row, stored row isRow⟩, columns, cells⟩

omit [NumeralReading] in
/-- The table of an item is found under the name of the item. -/
theorem Complete.exists_table
    (complete : i.Complete)
    (ranges : i.query.entityOf? i.model item = some entity) :
    ∃ source ∈ i.query.sources, ∃ table place,
      i.model.entity? source.entity = some entity ∧ i.store.table? entity.table = some table ∧
      i.tables.zipIdx.find? (·.1.tableAlias == item) = some (⟨item, table⟩, place) := by
  obtain ⟨source, isSource, known⟩ := Option.bind_eq_some_iff.mp ranges
  have among := List.mem_of_find?_eq_some isSource
  have found : ∀ {sources : List Source} {tables : List BoundTable} (first : Nat),
      List.Forall₂ (fun source bound => i.bound? source = some bound) sources tables →
      sources.find? (·.item == item) = some source →
      ∃ bound place, i.bound? source = some bound ∧
        (tables.zipIdx first).find? (·.1.tableAlias == item) = some (bound, place) := by
    intro sources tables first related isFound
    induction related generalizing first with
    | nil => cases isFound
    | @cons other bound others bounds isBound _ inductionHypothesis =>
        have sameAlias : bound.tableAlias = other.item := by
          simp only [bound?, Option.bind_eq_bind, Option.bind_eq_some_iff, Option.pure_def,
            Option.some.injEq] at isBound
          obtain ⟨_, _, _, _, rfl⟩ := isBound
          rfl
        by_cases isItem : other.item = item
        · obtain rfl : other = source := by simpa [isItem] using isFound
          exact ⟨bound, first, isBound, by simp [sameAlias, isItem]⟩
        · have further : others.find? (·.item == item) = some source := by
            simpa [isItem] using isFound
          obtain ⟨bound, place, isBound, isPlace⟩ := inductionHypothesis (first + 1) further
          exact ⟨bound, place, isBound, by simpa [sameAlias, isItem] using isPlace⟩
  obtain ⟨bound, place, isBound, isPlace⟩ := found 0 complete isSource
  simp only [bound?, known, Option.bind_eq_bind, Option.bind_some, Option.bind_eq_some_iff,
    Option.pure_def, Option.some.injEq] at isBound
  obtain ⟨table, isTable, rfl⟩ := isBound
  have isItem : source.item = item := by simpa using List.find?_some isSource
  exact ⟨source, among, table, place, known, isTable, by rw [← isItem] at isPlace ⊢; exact isPlace⟩

variable {property : Property} {ref : ColumnRef}

/-- A qualified column that is found is the column of the property in the table of the item. -/
theorem column?_of_findColumn
    (complete : i.Complete)
    (agrees : i.Agrees)
    (ranges : i.query.entityOf? i.model item = some entity)
    (declared : property ∈ entity.properties)
    (found : findColumn (i.tables.zipIdx.filter fun entry => sameName entry.1.tableAlias item)
      property.column = .ok ref) :
    i.column? item property.column = some ref := by
  obtain ⟨source, isSource, table, place, known, isTable, isPlace⟩ := complete.exists_table ranges
  have holds := agrees source isSource entity known table isTable
  have isNamed : (⟨item, table⟩, place) ∈
      i.tables.zipIdx.filter fun entry => sameName entry.1.tableAlias item :=
    List.mem_filter.mpr ⟨List.mem_of_find?_eq_some isPlace, sameName_self item⟩
  rw [column?, isPlace]
  exact head?_columnsNamed_of_findColumn found isNamed (holds.columns property declared)

/-- The cell of a property is one of its kind, as its column stores it. -/
theorem cell_of_column?
    (complete : i.Complete)
    (agrees : i.Agrees)
    (ranges : i.query.entityOf? i.model item = some entity)
    (declared : property ∈ entity.properties)
    (isColumn : i.column? item property.column = some ref)
    {row : JoinedRow}
    (isRow : row ∈ i.allRows) :
    property.kind.holds (ref.cell row) = true ∧
      ∃ given, ref.cell row = ref.affinity.store given := by
  obtain ⟨source, isSource, table, place, known, isTable, isPlace⟩ := complete.exists_table ranges
  have holds := agrees source isSource entity known table isTable
  rw [column?, isPlace] at isColumn
  obtain ⟨column, index, isThere, isSame, rfl⟩ :=
    exists_of_mem_columnsNamed (List.mem_of_head? isColumn)
  have isBound : i.tables[place]? = some ⟨item, table⟩ :=
    List.mem_zipIdx_iff_getElem?.mp (List.mem_of_find?_eq_some isPlace)
  have related := Search.forall₂_of_mem_joinedRows isRow
  obtain ⟨inside, isTableThere⟩ := List.getElem?_eq_some_iff.mp isBound
  have insideRow : place < row.length := related.length_eq ▸ inside
  have cells : row[place].cells ∈ table.rows := by
    have there := (List.forall₂_iff_get.mp related).2 place inside insideRow
    simpa [isTableThere] using there
  rw [ColumnRef.cell, List.getElem?_eq_getElem insideRow]
  exact holds.cell declared cells isThere isSame

end Interpretation

end FullTextQuery
