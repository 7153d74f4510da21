import FullTextQuery.Plan.Run
import FullTextQuery.Proofs.Planner.Draft
import FullTextQuery.Proofs.Sql.Grouping
import FullTextQuery.Proofs.Store.Membership

namespace FullTextQuery

/-!
# What a query means

A query ranges over the rows of the tables of its items, joined in every way.
Each of its expressions has a cell on each joined row, found without the text of
a statement: a literal has its own value, a member has the cell of its property's
column in the row of its own item, and a search call asks whether the key in the
row of its item is one of the values that were found.  The query means the records
of the joined rows on which its filters and the equalities of its joins are true.
-/

namespace Expr

/-- The operator of a comparison; with a literal null on the right it asks for identity. -/
def operator
    (op : Comparison)
    (right : Expr) :
    Sql.Operator :=
  match op, right with
  | .eq, .literal .null => .same
  | .notEq, .literal .null => .notSame
  | op, _ => Sql.comparisonOperator op

end Expr

namespace Query

/-- What has to be true on a joined row: the filters and the equalities of the joins. -/
def conditions
    (query : Query) :
    List Expr :=
  query.filters ++ query.joins.map fun join => .compare join.left .eq join.right

variable {query : Query} {e : Expr}

/-- The search calls in a condition are search calls of the query. -/
theorem searchCalls_subset_of_condition
    (isCondition : e ∈ query.conditions) :
    e.searchCalls ⊆ query.searchCalls := by
  intro call isCall
  rw [searchCalls_eq_append, List.mem_append]
  rcases List.mem_append.mp isCondition with isFilter | isEquality
  · exact .inl (List.mem_flatMap.mpr ⟨e, isFilter, isCall⟩)
  · obtain ⟨join, isJoin, rfl⟩ := List.mem_map.mp isEquality
    rw [Expr.searchCalls_compare] at isCall
    exact .inr (List.mem_append_left _ (List.mem_append_left _
      (List.mem_flatMap.mpr ⟨join, isJoin, isCall⟩)))

/-- The search calls in a projected expression are search calls of the query. -/
theorem searchCalls_subset_of_projected
    {model : Model}
    (isProjected : e ∈ query.projected model) :
    e.searchCalls ⊆ query.searchCalls := by
  intro call isCall
  rw [searchCalls_eq_append, List.mem_append]
  unfold projected at isProjected
  split at isProjected
  · split at isProjected
    · obtain ⟨property, _, rfl⟩ := List.mem_map.mp isProjected
      simp at isCall
    · exact absurd isProjected List.not_mem_nil
  · exact .inr (List.mem_append_left _ (List.mem_append_right _
      (List.mem_flatMap.mpr ⟨e, isProjected, isCall⟩)))

end Query

/-- What the meaning of a query depends on: the values found are those of the search's keys. -/
structure Interpretation where
  model : Model
  query : Query
  store : Store
  parameters : Parameters
  found : List Value

variable [NumeralReading]

namespace Interpretation

open Store

section Cells

variable (i : Interpretation)

/-- Whether the store takes the literal of every real that decides the records for the real. -/
def ReadsBack :
    Prop :=
  ∀ e ∈ i.query.conditions ++ i.query.projected i.model,
    ∀ x, .literal (.real x) ∈ e.nodes → x.ReadsBack

/-- The table of a source under the name of its item. -/
def bound?
    (source : Source) :
    Option BoundTable := do
  let entity ← i.model.entity? source.entity
  let table ← i.store.table? entity.table
  return ⟨source.item, table⟩

/-- The tables of the items. -/
def tables :
    List BoundTable :=
  i.query.sources.filterMap i.bound?

/-- The column with a name in the table of an item. -/
def column?
    (item name : String) :
    Option ColumnRef := do
  let (source, place) ← i.tables.zipIdx.find? (·.1.tableAlias == item)
  (columnsNamed place source name).head?

/-- The column of a property of an item. -/
def memberColumn?
    (item property : String) :
    Option ColumnRef := do
  let entity ← i.query.entityOf? i.model item
  let declared ← entity.property? property
  i.column? item declared.column

/-- The column of the key of an item. -/
def keyColumn?
    (item : String) :
    Option ColumnRef := do
  let entity ← i.query.entityOf? i.model item
  let (key, _) ← entity.searchable?
  i.column? item key.column

/-- The cell of the key of an item on a joined row. -/
def key
    (row : JoinedRow)
    (item : String) :
    Cell :=
  (i.keyColumn? item).elim .null (·.cell row)

/-- The affinity of a column; other expressions have none. -/
def affinity? : Expr → Option Affinity
  | .member item property => (i.memberColumn? item property).map (·.affinity)
  | .item _ | .literal _ | .parameter _ | .compare .. | .and .. | .or .. | .not _ | .call .. => none

mutual

/-- The cell of an expression on a joined row; what has no meaning counts as null. -/
def cell
    (row : JoinedRow) :
    Expr → Cell
  | .item _ => .null
  | .member item property => (i.memberColumn? item property).elim .null (·.cell row)
  | .literal value => Cell.ofValue value
  | .parameter name => (i.parameters.get? name).elim .null Cell.ofValue
  | .compare left op right =>
      Cell.compared (Expr.operator op right) (i.affinity? left) (i.affinity? right)
        (cell row left) (cell row right)
  | .and left right =>
      Cell.ofTruth (Scalar.bothTrue (cell row left).truth? (cell row right).truth?)
  | .or left right =>
      Cell.ofTruth (Scalar.anyTrue (cell row left).truth? (cell row right).truth?)
  | .not operand => Cell.ofTruth ((cell row operand).truth?.map Bool.not)
  | .call function args =>
      match (Expr.call function args).searchCall? with
      | some (item, _) => Cell.ofTruth (Value.foundAmong i.found (i.key row item))
      | none =>
          match ScalarFunction.ofName? function, cells row args with
          | some scalarFunction, [arg] => Cell.applied scalarFunction arg
          | _, _ => .null

/-- The cells of arguments. -/
def cells
    (row : JoinedRow) :
    List Expr → List Cell
  | [] => []
  | arg :: args => cell row arg :: cells row args

end

/-- Whether a condition is true on a joined row. -/
def isTrue
    (row : JoinedRow)
    (e : Expr) :
    Bool :=
  (i.cell row e).truth? == some true

/-- All joined rows. -/
def allRows :
    List JoinedRow :=
  Search.joinedRows i.tables

/-- The joined rows that the query selects. -/
def rows :
    List JoinedRow :=
  i.allRows.filter fun row => i.query.conditions.all (i.isTrue row)

/-- The record of a joined row, with names and kinds as given. -/
def record
    (columns : List ResultColumn)
    (row : JoinedRow) :
    Record where
  fields := List.zipWith
    (fun column cell => (column.name, RowStep.cellValue column.kind? cell))
    columns ((i.query.projected i.model).map (i.cell row))

/-- The records of the query, in the order of the joined rows. -/
def records
    (columns : List ResultColumn) :
    List Record :=
  i.rows.map (i.record columns)

end Cells

section Laws

variable {i j : Interpretation} {row : JoinedRow}

/-- Arguments have their cells one by one. -/
theorem cells_eq_map
    (args : List Expr) :
    i.cells row args = args.map (i.cell row) := by
  induction args with
  | nil => rfl
  | cons arg args inductionHypothesis => rw [cells, inductionHypothesis, List.map_cons]

/-- The cell of a search call tells whether the key of its item is among the values found. -/
theorem cell_of_searchCall?
    {e : Expr}
    {item : String}
    {phrase : Expr.SearchPhrase}
    (isSearch : e.searchCall? = some (item, phrase)) :
    i.cell row e = Cell.ofTruth (Value.foundAmong i.found (i.key row item)) := by
  obtain ⟨text, rfl, _⟩ := Expr.searchCall?_eq_some.mp isSearch
  rw [cell, isSearch]

/-- The cell of any other call is what its function makes of its single argument. -/
theorem cell_call
    {function : String}
    {args : List Expr}
    (notSearch : (Expr.call function args).searchCall? = none) :
    i.cell row (.call function args) =
      match ScalarFunction.ofName? function, args.map (i.cell row) with
      | some scalarFunction, [arg] => Cell.applied scalarFunction arg
      | _, _ => .null := by
  rw [cell, notSearch, cells_eq_map]

/-- Expressions have the same cells wherever columns, parameters and search calls are the same. -/
theorem cell_congr
    {e : Expr}
    (members : ∀ item property, j.memberColumn? item property = i.memberColumn? item property)
    (parameters : j.parameters = i.parameters)
    (searches : ∀ call ∈ e.searchCalls, Value.foundAmong j.found (j.key row call.1) =
      Value.foundAmong i.found (i.key row call.1)) :
    j.cell row e = i.cell row e := by
  have affinities : ∀ e, j.affinity? e = i.affinity? e := by
    intro e
    cases e <;> simp [affinity?, members]
  induction e with
  | item name => rfl
  | member item property => rw [cell, cell, members]
  | literal value => rfl
  | parameter name => rw [cell, cell, parameters]
  | compare left op right leftSame rightSame =>
      simp only [Expr.searchCalls_compare, List.forall_mem_append] at searches
      rw [cell, cell, leftSame searches.1, rightSame searches.2, affinities, affinities]
  | and left right leftSame rightSame =>
      simp only [Expr.searchCalls_and, List.forall_mem_append] at searches
      rw [cell, cell, leftSame searches.1, rightSame searches.2]
  | or left right leftSame rightSame =>
      simp only [Expr.searchCalls_or, List.forall_mem_append] at searches
      rw [cell, cell, leftSame searches.1, rightSame searches.2]
  | not operand operandSame =>
      rw [Expr.searchCalls_not] at searches
      rw [cell, cell, operandSame searches]
  | call function args argsSame =>
      cases isSearch : (Expr.call function args).searchCall? with
      | some searched =>
          rw [cell_of_searchCall? isSearch, cell_of_searchCall? isSearch]
          exact congrArg Cell.ofTruth
            (searches searched (by simp [Expr.searchCalls_of_searchCall? isSearch]))
      | none =>
          simp only [Expr.searchCalls_call isSearch, List.forall_mem_flatMap] at searches
          have sameCells : args.map (j.cell row) = args.map (i.cell row) :=
            List.map_congr_left fun arg isArg => argsSame arg isArg (searches arg isArg)
          rw [cell_call isSearch, cell_call isSearch, sameCells]

/-- The interpretation of the query with other values found. -/
def withFound
    (i : Interpretation)
    (found : List Value) :
    Interpretation :=
  { i with found }

/-- What a search has found decides nothing but the search calls. -/
theorem records_withFound
    {found : List Value}
    (same : ∀ row, ∀ call ∈ i.query.searchCalls,
      Value.foundAmong found (i.key row call.1) = Value.foundAmong i.found (i.key row call.1))
    (columns : List ResultColumn) :
    (i.withFound found).records columns = i.records columns := by
  have sameCell : ∀ {e : Expr}, e.searchCalls ⊆ i.query.searchCalls → ∀ row,
      (i.withFound found).cell row e = i.cell row e :=
    fun subset row => cell_congr (fun _ _ => rfl) rfl
      fun call isCall => same row call (subset isCall)
  have sameRows : (i.withFound found).rows = i.rows := by
    refine List.filter_congr fun row _ => ?_
    rw [Bool.eq_iff_iff, List.all_eq_true, List.all_eq_true]
    refine forall₂_congr fun e isCondition => ?_
    rw [isTrue, isTrue, sameCell (Query.searchCalls_subset_of_condition isCondition)]
  have sameRecord : (i.withFound found).record columns = i.record columns := by
    funext row
    exact congrArg (fun cells => Record.mk (List.zipWith _ columns cells))
      (List.map_congr_left fun e isProjected =>
        sameCell (Query.searchCalls_subset_of_projected isProjected) row)
  rw [records, records, sameRows, sameRecord]

/-- The interpretation of the query with other filters. -/
def withFilters
    (i : Interpretation)
    (filters : List Expr) :
    Interpretation :=
  { i with query := { i.query with filters } }

/-- Other filters leave the cells of expressions as they are. -/
theorem cell_withFilters
    (filters : List Expr) :
    (i.withFilters filters).cell = i.cell := by
  funext row e
  exact cell_congr (j := i.withFilters filters) (fun _ _ => rfl) rfl fun _ _ => rfl

/-- A conjunction is true exactly if both sides are. -/
theorem isTrue_and
    (left right : Expr) :
    i.isTrue row (.and left right) = (i.isTrue row left && i.isTrue row right) := by
  simp only [isTrue, cell, Cell.truth?_ofTruth]
  rcases (i.cell row left).truth? with _ | _ | _ <;>
    rcases (i.cell row right).truth? with _ | _ | _ <;> rfl

/-- With a single filter, the joined rows on which it and the equalities of the joins are true. -/
theorem records_withFilter
    (filter : Expr)
    (columns : List ResultColumn) :
    (i.withFilters [filter]).records columns =
      (i.allRows.filter fun row => i.isTrue row filter &&
        (i.withFilters []).query.conditions.all (i.isTrue row)).map (i.record columns) := by
  have sameTruth : (i.withFilters [filter]).isTrue = i.isTrue := by
    funext row e
    rw [isTrue, isTrue, cell_withFilters]
  have sameRecord : (i.withFilters [filter]).record columns = i.record columns := by
    funext row
    simp only [record, cell_withFilters]
    rfl
  simp only [records, rows, sameTruth, sameRecord]
  rfl

/--
If no key of an item is null, a condition together with a search for the item
selects some records, and together with the negated search all others that
the condition selects.
-/
theorem records_search_append_perm
    (i : Interpretation)
    (columns : List ResultColumn)
    (condition : Expr)
    {call : Expr}
    {item : String}
    {phrase : Expr.SearchPhrase}
    (isSearch : call.searchCall? = some (item, phrase))
    (notNull : ∀ row ∈ i.allRows, i.key row item ≠ .null) :
    ((i.withFilters [.and condition call]).records columns ++
      (i.withFilters [.and condition (.not call)]).records columns).Perm
        ((i.withFilters [condition]).records columns) := by
  have negated : ∀ row ∈ i.allRows, i.isTrue row (.not call) = !i.isTrue row call := by
    intro row isRow
    simp only [isTrue, cell, cell_of_searchCall? isSearch, Cell.truth?_ofTruth,
      Value.foundAmong_eq_some i.found (notNull row isRow)]
    cases decide (i.key row item ∈ i.found.map Cell.ofValue) <;> rfl
  simp only [records_withFilter, isTrue_and]
  rw [← List.map_append]
  refine List.Perm.map _ ?_
  -- The selected rows of the condition, split by whether the search call is true on them.
  generalize (i.withFilters []).query.conditions = joined
  have split := List.filter_append_perm (fun row => i.isTrue row call)
    (i.allRows.filter fun row => i.isTrue row condition && joined.all (i.isTrue row))
  simp only [List.filter_filter] at split
  refine (List.Perm.of_eq ?_).trans split
  refine congrArg₂ (· ++ ·) ?_ ?_
  · refine List.filter_congr fun row _ => ?_
    cases i.isTrue row condition <;> cases i.isTrue row call <;> rfl
  · refine List.filter_congr fun row isRow => ?_
    rw [negated row isRow]
    cases i.isTrue row condition <;> cases i.isTrue row call <;> rfl

end Laws

end Interpretation

end FullTextQuery
