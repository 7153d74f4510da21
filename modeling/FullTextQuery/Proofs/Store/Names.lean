import FullTextQuery.Proofs.Pointwise
import FullTextQuery.Proofs.Sql.Grouping
import FullTextQuery.Proofs.Store.Failures
import FullTextQuery.Proofs.Store.Rows

/-!
# Names that are found

A qualified column is found if just one table goes by its alias and the table has
just one column of its name.  A selection in which every column, every function and every
table is found, and whose sort terms name no result column that is not there, fails only
at a limit of the store.
-/

/-- Among elements that are pairwise not the same, a single one is the same as a given one. -/
theorem List.filter_eq_singleton_of_pairwise
    (same : α → α → Bool)
    (refl : ∀ a, same a a = true)
    (symm : ∀ a b, same a b = same b a)
    {items : List α}
    (distinct : items.Pairwise fun a b => same a b = false)
    {item : α}
    (isItem : item ∈ items) :
    items.filter (same · item) = [item] := by
  induction items with
  | nil => exact absurd isItem not_mem_nil
  | cons first rest inductionHypothesis =>
      obtain ⟨fromFirst, restDistinct⟩ := pairwise_cons.mp distinct
      rcases mem_cons.mp isItem with rfl | isOther
      · have noOther : rest.filter (same · item) = [] := by
          refine filter_eq_nil_iff.mpr fun other isOther => ?_
          rw [symm, fromFirst other isOther]
          exact Bool.false_ne_true
        rw [filter_cons, if_pos (refl item), noOther]
      · rw [filter_cons, fromFirst item isOther]
        exact inductionHypothesis restDistinct isOther

namespace FullTextQuery.Store

open StoreError (IsLimit)

section SameName

@[simp] theorem sameName_self
    (name : String) :
    sameName name name = true := by
  simp [sameName]

/-- That names are the same but for the case of letters holds both ways. -/
theorem sameName_comm
    (a b : String) :
    sameName a b = sameName b a := by
  rw [sameName, sameName, Bool.beq_comm]

/-- Names that are the same are the same as the same names. -/
theorem sameName_congr
    {a b : String}
    (isSame : sameName a b = true)
    (name : String) :
    sameName name a = sameName name b := by
  rw [sameName, beq_iff_eq] at isSame
  rw [sameName, sameName, isSame]

/-- A table without a duplicate has no two columns of the same name. -/
theorem Table.pairwise_of_duplicateColumn?
    {columns : List Column}
    (noDuplicate : duplicateColumn? columns = none) :
    columns.Pairwise fun a b => sameName a.name b.name = false := by
  induction columns with
  | nil => exact .nil
  | cons column columns inductionHypothesis =>
      rw [duplicateColumn?] at noDuplicate
      split at noDuplicate
      · cases noDuplicate
      · rename_i noOther
        refine .cons (fun other isOther => ?_) (inductionHypothesis noDuplicate)
        simpa using List.find?_eq_none.mp noOther other isOther

end SameName

section Columns

/-- What is pairwise true of elements is pairwise true of them with their places. -/
theorem pairwise_zipIdx
    {relation : α → α → Prop}
    {items : List α}
    (related : items.Pairwise relation) :
    items.zipIdx.Pairwise fun a b => relation a.1 b.1 := by
  rw [← List.pairwise_map, List.zipIdx_map_fst]
  exact related

/-- A table without a duplicate has a single column of the name of one of its columns. -/
theorem exists_columnsNamed_eq_singleton
    {source : BoundTable}
    {name : String}
    (noDuplicate : Table.duplicateColumn? source.table.columns = none)
    (hasColumn : ∃ column ∈ source.table.columns, sameName column.name name = true)
    (place : Nat) :
    ∃ ref, columnsNamed place source name = [ref] := by
  obtain ⟨column, isColumn, isSame⟩ := hasColumn
  obtain ⟨index, isPlace⟩ := List.mem_iff_getElem?.mp isColumn
  have distinct := pairwise_zipIdx (Table.pairwise_of_duplicateColumn? noDuplicate)
  have isEntry : (column, index) ∈ source.table.columns.zipIdx :=
    List.mem_zipIdx_iff_getElem?.mpr isPlace
  have single := List.filter_eq_singleton_of_pairwise
    (fun a b : Column × Nat => sameName a.1.name b.1.name) (fun a => sameName_self a.1.name)
    (fun a b => sameName_comm a.1.name b.1.name) distinct isEntry
  refine ⟨⟨place, some index, column.affinity⟩, ?_⟩
  simp only [columnsNamed, ← sameName_congr isSame, single, List.map_cons, List.map_nil]

/-- A column is found in the only table that goes by its alias. -/
theorem exists_findColumn_eq_ok
    {sources : List BoundTable}
    {source : BoundTable}
    {name : String}
    (distinct : sources.Pairwise fun a b => sameName a.tableAlias b.tableAlias = false)
    (isSource : source ∈ sources)
    (noDuplicate : Table.duplicateColumn? source.table.columns = none)
    (hasColumn : ∃ column ∈ source.table.columns, sameName column.name name = true) :
    ∃ ref, findColumn (sources.zipIdx.filter fun entry =>
      sameName entry.1.tableAlias source.tableAlias) name = .ok ref := by
  obtain ⟨place, isPlace⟩ := List.mem_iff_getElem?.mp isSource
  have isEntry : (source, place) ∈ sources.zipIdx := List.mem_zipIdx_iff_getElem?.mpr isPlace
  have single := List.filter_eq_singleton_of_pairwise
    (fun a b : BoundTable × Nat => sameName a.1.tableAlias b.1.tableAlias)
    (fun a => sameName_self a.1.tableAlias)
    (fun a b => sameName_comm a.1.tableAlias b.1.tableAlias) (pairwise_zipIdx distinct) isEntry
  obtain ⟨ref, isRef⟩ := exists_columnsNamed_eq_singleton noDuplicate hasColumn place
  exact ⟨ref, by simp [findColumn, single, isRef]⟩

end Columns

/-- Whether the names in a term are found. -/
def Resolves
    (sources : List BoundTable)
    (bindings : Bindings)
    (term : Sql.Term) :
    Prop :=
  ∃ scalar, Scalar.ofTerm sources bindings term = .ok scalar

namespace Resolves

variable {sources : List BoundTable} {bindings : Bindings} {left right operand : Sql.Term}

/-- The names in a comparison are found if those in its sides are. -/
theorem compare
    (leftResolves : Resolves sources bindings left)
    (op : Sql.Operator)
    (rightResolves : Resolves sources bindings right) :
    Resolves sources bindings (.compare left op right) := by
  obtain ⟨a, isLeft⟩ := leftResolves
  obtain ⟨b, isRight⟩ := rightResolves
  exact ⟨.compare a op b, by simp [Scalar.ofTerm, isLeft, isRight]⟩

/-- The names in a conjunction are found if those in its sides are. -/
theorem and
    (leftResolves : Resolves sources bindings left)
    (rightResolves : Resolves sources bindings right) :
    Resolves sources bindings (.and left right) := by
  obtain ⟨a, isLeft⟩ := leftResolves
  obtain ⟨b, isRight⟩ := rightResolves
  unfold Resolves
  rw [Scalar.ofTerm]
  split
  · exact ⟨_, rfl⟩
  · exact ⟨.and a b, by simp [isLeft, isRight]⟩

/-- The names in a disjunction are found if those in its sides are. -/
theorem or
    (leftResolves : Resolves sources bindings left)
    (rightResolves : Resolves sources bindings right) :
    Resolves sources bindings (.or left right) := by
  obtain ⟨a, isLeft⟩ := leftResolves
  obtain ⟨b, isRight⟩ := rightResolves
  exact ⟨.or a b, by simp [Scalar.ofTerm, isLeft, isRight]⟩

/-- The names in a negation are found if those in its operand are. -/
theorem not
    (operandResolves : Resolves sources bindings operand) :
    Resolves sources bindings (.not operand) := by
  obtain ⟨a, isOperand⟩ := operandResolves
  exact ⟨.not a, by simp [Scalar.ofTerm, isOperand]⟩

/-- The names in a call of a known function are found if those in its argument are. -/
theorem call
    {name : String}
    {function : ScalarFunction}
    (isFunction : ScalarFunction.ofName? name = some function)
    (operandResolves : Resolves sources bindings operand) :
    Resolves sources bindings (.call name [operand]) := by
  obtain ⟨a, isOperand⟩ := operandResolves
  exact ⟨.apply function a, by simp [Scalar.ofTerm, Scalar.ofTerms, isOperand, isFunction]⟩

/-- Tests behind a term have no names of their own. -/
theorem withTests
    (operandResolves : Resolves sources bindings operand)
    (valueSets : List String) :
    Resolves sources bindings (operand.withTests valueSets) := by
  induction valueSets generalizing operand with
  | nil => exact operandResolves
  | cons valueSet valueSets inductionHypothesis =>
      obtain ⟨a, isOperand⟩ := operandResolves
      exact inductionHypothesis ⟨.inSet a (bindings.cells valueSet),
        by simp [Scalar.ofTerm, isOperand]⟩

end Resolves

namespace Search

variable {store : Store} {bindings : Bindings} {selection : Sql.Selection}
  {sources : List BoundTable}

/-- Whether a sort term names no place, or one of some number of result columns. -/
def Placed
    (results : Nat)
    (term : Sql.Term) :
    Prop :=
  ∀ place ∈ resultPlace? term, 1 ≤ place ∧ place ≤ results

/-- What a sort term sorts by is found. -/
theorem exists_sortScalar
    {results : List Scalar}
    {sort : Sql.SortTerm}
    (placed : Placed results.length sort.term)
    (resolves : Resolves sources bindings sort.term) :
    ∃ found, sortScalar sources bindings results sort = .ok found := by
  unfold sortScalar
  cases isPlace : resultPlace? sort.term with
  | none =>
      obtain ⟨scalar, isScalar⟩ := resolves
      exact ⟨⟨scalar, sort.descending⟩, by simp [isScalar]⟩
  | some place =>
      obtain ⟨least, most⟩ := placed place isPlace
      obtain ⟨scalar, isScalar⟩ : ∃ scalar, results[(place - 1).toNat]? = some scalar :=
        ⟨_, List.getElem?_eq_getElem (by omega)⟩
      exact ⟨⟨scalar, sort.descending⟩, by simp only [not_lt.mpr least, isScalar, if_false]⟩

/-- What a sort term sorts by is found only at the place of a result column. -/
theorem placed_of_sortScalar
    {results : List Scalar}
    {sort : Sql.SortTerm}
    {found : SortScalar}
    (success : sortScalar sources bindings results sort = .ok found) :
    Placed results.length sort.term := by
  intro place isPlace
  rw [sortScalar, Option.mem_def.mp isPlace] at success
  dsimp only at success
  split at success
  · cases success
  · rename_i notLess
    split at success
    · rename_i isScalar
      have inside := (List.getElem?_eq_some_iff.mp isScalar).1
      omega
    · cases success

/-- A selection is found only if its sort terms name the places of result columns. -/
theorem placed_of_ofSelection
    {search : Search}
    (found : ofSelection store bindings selection = .ok search) :
    ∀ sort ∈ selection.ordering, Placed selection.results.length sort.term := by
  simp only [ofSelection] at found
  split at found
  · rw [Except.error_bind] at found
    cases found
  · split at found
    · rw [Except.error_bind] at found
      cases found
    · simp only [Except.pure_eq_ok, Except.bind_eq_ok, Except.mapM_eq_ok] at found
      obtain ⟨sources, _, results, areResults, _, _, _, _, ordering, areSorts, _⟩ := found
      intro sort isSort
      obtain ⟨sorted, _, isFound⟩ := List.exists_of_forall₂_right areSorts.flip isSort
      rw [areResults.length_eq]
      exact placed_of_sortScalar isFound

/-- A selection whose names are found fails only at the limits for terms and tables. -/
theorem failsOnlyBy_ofSelection
    (tables : List.Forall₂ (fun ref source => boundTable store ref = .ok source)
      selection.tables sources)
    (resolves : ∀ term ∈ selection.terms, Resolves sources bindings term)
    (placed : ∀ sort ∈ selection.ordering, Placed selection.results.length sort.term) :
    (ofSelection store bindings selection).FailsOnlyBy IsLimit := by
  simp only [Sql.Selection.terms, List.forall_mem_append, List.forall_mem_map] at resolves
  obtain ⟨⟨⟨resultsResolve, joinsResolve⟩, filterResolves⟩, orderingResolves⟩ := resolves
  obtain ⟨results, areResults⟩ := List.exists_forall₂_iff.mpr resultsResolve
  obtain ⟨joins, areJoins⟩ := List.exists_forall₂_iff.mpr joinsResolve
  obtain ⟨filters, areFilters⟩ := List.exists_forall₂_iff.mpr filterResolves
  have sorts : ∀ sort ∈ selection.ordering,
      ∃ found, sortScalar sources bindings results sort = .ok found := by
    intro sort isSort
    refine exists_sortScalar ?_ (orderingResolves sort isSort)
    rw [← areResults.length_eq]
    exact placed sort isSort
  obtain ⟨ordering, areSorts⟩ := List.exists_forall₂_iff.mpr sorts
  simp only [ofSelection]
  split
  · rw [Except.error_bind]
    rintro _ ⟨⟩
    exact .tooDeep
  · split
    · rw [Except.error_bind]
      rintro _ ⟨⟩
      exact .tooManyTables
    · simp only [Except.pure_eq_ok, Except.ok_bind, Except.mapM_eq_ok.mpr tables,
        Except.mapM_eq_ok.mpr areResults, Except.mapM_eq_ok.mpr areFilters,
        Except.mapM_eq_ok.mpr areJoins, Except.mapM_eq_ok.mpr areSorts]
      exact .ok

/-- A selection whose names are found, with an integer as its limit, fails only at a limit. -/
theorem failsOnlyBy_select
    [NumeralReading]
    (tables : List.Forall₂ (fun ref source => boundTable store ref = .ok source)
      selection.tables sources)
    (resolves : ∀ term ∈ selection.terms, Resolves sources bindings term)
    (placed : ∀ sort ∈ selection.ordering, Placed selection.results.length sort.term)
    (small : ∀ limit ∈ selection.limit?, limit < 0x8000000000000000) :
    (ofSelection store bindings selection >>= rows).FailsOnlyBy IsLimit := by
  refine (failsOnlyBy_ofSelection tables resolves placed).bind fun search found => ?_
  refine search.failsOnlyBy_rows ?_
  rw [(resolved_of_ofSelection found).limit]
  exact small

end Search

end FullTextQuery.Store
