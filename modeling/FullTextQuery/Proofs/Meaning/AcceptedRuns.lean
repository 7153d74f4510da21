import FullTextQuery.Binary64.Nearest
import FullTextQuery.Proofs.Meaning.Resolving
import FullTextQuery.Proofs.Meaning.Run
import FullTextQuery.Proofs.Meaning.Scalars
import FullTextQuery.Proofs.Planner.AlikeRuns
import FullTextQuery.Proofs.Planner.WrittenStatements
import FullTextQuery.Proofs.Store.Names

namespace FullTextQuery

/-!
# Accepted queries run

The statement of a query that has a plan is refused by the store only for what its reader and
its search for names are stricter about than planning is: a list of no result columns, a sort
key that is read as a place where no column is, a limit that is no integer of the store, a
real literal without a numeral, or items that the store takes for one.  Apart from these, and
from the limits of the store, a run returns records.
-/

/-!
## Sort keys that name a place

The store takes a small integer as a sort term for the place of a result column, and a
conjunction that is false in any case for the number zero.  Which sort keys these are
can be told from the query.
-/

namespace Expr

/-- Whether a function is called in an expression; `like` is one, and a search call is none. -/
def callsFunction : Expr → Bool
  | .item _ | .member .. | .literal _ | .parameter _ => false
  | .compare left op right => op == .like || left.callsFunction || right.callsFunction
  | .and left right => left.callsFunction || right.callsFunction
  | .or left right => left.callsFunction || right.callsFunction
  | .not operand => operand.callsFunction
  | .call function args => (Expr.call function args).searchCall?.isNone

/-- Whether an expression is false whatever else it names. -/
def isNever : Expr → Bool
  | .literal value => value == .integer 0
  | .and left right =>
      (left.isNever || right.isNever) && !left.callsFunction && !right.callsFunction
  | .item _ | .member .. | .parameter _ | .compare .. | .or .. | .not _ | .call .. => false

/-- The place of a result column that a sort key names by a number. -/
def place? : Expr → Option Int
  | .literal (.integer n) => if n.toInt.natAbs < 0x80000000 then some n.toInt else none
  | .and left right => if (Expr.and left right).isNever then some 0 else none
  | _ => none

variable {model : Model} {query : Query}

/-- An operator is read as `LIKE` exactly if it is one. -/
theorem operator_beq_like
    (op : Comparison)
    (right : Expr) :
    (operator op right == .like) = (op == .like) := by
  cases op <;> unfold operator <;> split <;> simp_all [Sql.comparisonOperator]

/-- What an expression is read as has the place, and the calls, of the expression. -/
theorem ReadAs.place
    [NumeralReading]
    {e : Expr}
    {term : Sql.Term}
    (readAs : e.ReadAs model query term) :
    Store.resultPlace? term = e.place? := by
  refine And.right (readAs.induction (motive := fun e term =>
      (term.callsFunction = e.callsFunction ∧ term.isNever = e.isNever) ∧
        Store.resultPlace? term = e.place?)
    ?member ?literal ?parameter ?compare ?and ?or ?not ?search ?call)
  case member =>
    intros
    exact ⟨⟨rfl, rfl⟩, rfl⟩
  case literal =>
    intro value term reads
    cases value with
    | real x =>
        rcases Sql.literalTerm?_real_eq_some reads with ⟨word, rfl⟩ | ⟨y, rfl⟩
        · exact ⟨⟨rfl, rfl⟩, rfl⟩
        · exact ⟨⟨rfl, rfl⟩, rfl⟩
    | null =>
        obtain rfl := Option.some.inj reads
        exact ⟨⟨rfl, rfl⟩, rfl⟩
    | integer n =>
        obtain rfl := Option.some.inj reads
        exact ⟨⟨rfl, rfl⟩, rfl⟩
    | text s =>
        obtain rfl := Option.some.inj reads
        exact ⟨⟨rfl, rfl⟩, rfl⟩
  case parameter =>
    intro name
    exact ⟨⟨rfl, rfl⟩, rfl⟩
  case compare =>
    intro left op right l r ⟨⟨leftCalls, _⟩, _⟩ ⟨⟨rightCalls, _⟩, _⟩
    refine ⟨⟨?_, rfl⟩, rfl⟩
    rw [Sql.Term.callsFunction, callsFunction, operator_beq_like, leftCalls, rightCalls]
  case and =>
    intro left right l r ⟨⟨leftCalls, leftNever⟩, _⟩ ⟨⟨rightCalls, rightNever⟩, _⟩
    have never : (Sql.Term.and l r).isNever = (Expr.and left right).isNever := by
      rw [Sql.Term.isNever, isNever, leftCalls, leftNever, rightCalls, rightNever]
    refine ⟨⟨?_, never⟩, ?_⟩
    · rw [Sql.Term.callsFunction, callsFunction, leftCalls, rightCalls]
    · rw [Store.resultPlace?, place?, never]
  case or =>
    intro left right l r ⟨⟨leftCalls, _⟩, _⟩ ⟨⟨rightCalls, _⟩, _⟩
    refine ⟨⟨?_, rfl⟩, rfl⟩
    rw [Sql.Term.callsFunction, callsFunction, leftCalls, rightCalls]
  case not =>
    intro operand o ⟨⟨operandCalls, _⟩, _⟩
    exact ⟨⟨operandCalls, rfl⟩, rfl⟩
  case search =>
    intro e source phrase entity key index isSearch _ _
    obtain ⟨text, rfl, _⟩ := searchCall?_eq_some.mp isSearch
    refine ⟨⟨?_, rfl⟩, rfl⟩
    rw [callsFunction, isSearch]
    rfl
  case call =>
    intro function args terms notSearch _ _
    refine ⟨⟨?_, rfl⟩, rfl⟩
    rw [callsFunction, notSearch]
    rfl

end Expr

/-! ## Statements that are read -/

namespace Statement

/-- A statement with result columns is read if its expressions are, as terms with a property. -/
theorem exists_grouped?
    [NumeralReading]
    {s : Statement}
    {property : Sql.Term → Prop}
    (someResult : s.projection ≠ [])
    (each : ∀ e ∈ s.expressions, ∃ term, e.grouped? = some term ∧ property term) :
    ∃ selection, s.grouped? = some selection ∧ ∀ term ∈ selection.terms, property term := by
  simp only [expressions, List.forall_mem_append, List.forall_mem_map, Option.mem_toList] at each
  obtain ⟨⟨⟨columns, joins⟩, predicate⟩, ordering⟩ := each
  have someResults : ∀ item ∈ s.projection, ∃ result : Sql.ResultTerm,
      item.grouped? = some result ∧ property result.term := by
    intro item isItem
    obtain ⟨term, reads, has⟩ := columns item isItem
    exact ⟨⟨term, item.name⟩, by simp [OutputColumn.grouped?, reads], has⟩
  have someJoins : ∀ join ∈ s.joins, ∃ joined : Sql.JoinTerm,
      join.grouped? = some joined ∧ property joined.on := by
    intro join isJoin
    obtain ⟨term, reads, has⟩ := joins join isJoin
    exact ⟨⟨join.table, term⟩, by simp [JoinedTable.grouped?, reads], has⟩
  have someSorts : ∀ order ∈ s.ordering, ∃ sort : Sql.SortTerm,
      order.grouped? = some sort ∧ property sort.term := by
    intro order isOrder
    obtain ⟨term, reads, has⟩ := ordering order isOrder
    exact ⟨⟨term, order.descending⟩, by simp [OrderTerm.grouped?, reads], has⟩
  have someFilter : ∃ filter?, s.predicate?.mapM RelExpr.grouped? = some filter? ∧
      ∀ term ∈ filter?.toList, property term := by
    cases isPredicate : s.predicate? with
    | none => exact ⟨none, rfl, by simp⟩
    | some e =>
        obtain ⟨term, reads, has⟩ := predicate e isPredicate
        exact ⟨some term, by simp [Option.mapM, reads], by simpa using has⟩
  obtain ⟨results, areResults⟩ := List.exists_forall₂_iff.mpr someResults
  obtain ⟨joined, areJoined⟩ := List.exists_forall₂_iff.mpr someJoins
  obtain ⟨sorts, areSorts⟩ := List.exists_forall₂_iff.mpr someSorts
  obtain ⟨filter?, isFilter, filterHas⟩ := someFilter
  refine ⟨⟨results, s.source, joined, filter?, sorts, s.limit?.map UInt64.toNat⟩, ?_, ?_⟩
  · have notEmpty : s.projection.isEmpty = false := List.isEmpty_eq_false_iff.mpr someResult
    simp only [grouped?, notEmpty, Bool.false_eq_true, if_false, isFilter,
      List.mapM_eq_some.mpr (areResults.imp fun _ _ => And.left),
      List.mapM_eq_some.mpr (areJoined.imp fun _ _ => And.left),
      List.mapM_eq_some.mpr (areSorts.imp fun _ _ => And.left)]
    rfl
  · simp only [Sql.Selection.terms, List.forall_mem_append, List.forall_mem_map]
    refine ⟨⟨⟨?_, ?_⟩, filterHas⟩, ?_⟩
    · intro result isResult
      obtain ⟨_, _, _, has⟩ := List.exists_of_forall₂_right areResults isResult
      exact has
    · intro join isJoin
      obtain ⟨_, _, _, has⟩ := List.exists_of_forall₂_right areJoined isJoin
      exact has
    · intro sort isSort
      obtain ⟨_, _, _, has⟩ := List.exists_of_forall₂_right areSorts isSort
      exact has

/-- The sort terms of a statement are read as those of the selection. -/
theorem ordering_of_grouped?
    [NumeralReading]
    {s : Statement}
    {selection : Sql.Selection}
    (reads : s.grouped? = some selection) :
    s.projection ≠ [] ∧
      List.Forall₂ (fun order sort => order.expr.grouped? = some sort.term)
        s.ordering selection.ordering := by
  unfold grouped? at reads
  simp only [Option.bind_eq_bind, Option.pure_def] at reads
  split at reads
  · cases reads
  rename_i notEmpty
  simp only [Option.bind_eq_some_iff, Option.some.injEq, List.mapM_eq_some] at reads
  obtain ⟨_, _, _, _, _, _, ordering, areSorts, rfl⟩ := reads
  refine ⟨by simpa using notEmpty, areSorts.imp fun order sort isSort => ?_⟩
  obtain ⟨term, isTerm, rfl⟩ := Option.map_eq_some_iff.mp isSort
  exact isTerm

end Statement

namespace Interpretation

open Planner Store

variable {i : Interpretation} {draft : Draft} {parameters : List StatementParameter}
  {selection : Sql.Selection} {bindings : Bindings} {σ : Type} {database : Database σ}

variable [NumeralReading]

/-- The tables of a selection are those of the items. -/
theorem tables_of_readAs
    (drafted : Drafted i.model i.query draft)
    (readAs : draft.statement.ReadAs selection)
    (complete : i.Complete) :
    List.Forall₂ (fun ref source => Search.boundTable i.store ref = .ok source)
      selection.tables i.tables := by
  refine (List.forall₂_comp.mp ⟨_, (forall₂_tables drafted readAs).flip, complete⟩).imp ?_
  rintro ref bound ⟨source, ⟨entity, known, rfl⟩, isBound⟩
  simp only [bound?, known, Option.bind_eq_bind, Option.bind_some, Option.bind_eq_some_iff,
    Option.pure_def, Option.some.injEq] at isBound
  obtain ⟨table, isTable, rfl⟩ := isBound
  simp [Search.boundTable, Store.table, isTable]

/-- A sort term is at the place that its sort key names. -/
theorem forall₂_places
    (drafted : Drafted i.model i.query draft)
    (reads : draft.statement.grouped? = some selection) :
    List.Forall₂ (fun key sort => resultPlace? sort.term = key.expr.place?)
      i.query.ordering selection.ordering := by
  have noCalls : ∀ key ∈ i.query.ordering, key.expr.searchCalls = [] := by
    have noOthers := drafted.noOthers
    simp only [Query.otherCalls, List.append_eq_nil_iff, List.flatMap_eq_nil_iff] at noOthers
    exact noOthers.2
  refine List.forall₂_imp_of_mem ?_ (List.forall₂_comp.mp
    ⟨_, drafted.ordering, (Statement.ordering_of_grouped? reads).2⟩)
  rintro key isKey sort _ ⟨term, keyDrafted, isTerm⟩
  exact Expr.ReadAs.place ⟨term.expr, keyDrafted.expr,
    Expr.grouped_of_searchCalls_eq_nil keyDrafted.expr (noCalls key isKey), isTerm⟩

/-- A statement is read with as many results as the query projects. -/
theorem length_results
    (drafted : Drafted i.model i.query draft)
    (readAs : draft.statement.ReadAs selection) :
    selection.results.length = (i.query.projected i.model).length := by
  rw [← readAs.results.length_eq, (drafted.projection.outputs drafted.known).length_eq]

/--
Whether a query has a result column, sort keys that name no place or that of a result column,
and a limit, if it has one, that is an integer of the store.
-/
structure Selectable
    (i : Interpretation) :
    Prop where
  someColumn : i.query.projected i.model ≠ []
  places : ∀ key ∈ i.query.ordering, ∀ place ∈ key.expr.place?,
    1 ≤ place ∧ place ≤ (i.query.projected i.model).length
  limit : ∀ limit ∈ i.query.limit?, limit.toNat < 0x8000000000000000

/-- Whether moreover all reals are finite, and items differ in more than the case of letters. -/
structure Admissible
    (i : Interpretation) :
    Prop extends i.Selectable where
  finite : ∀ x, .literal (.real x) ∈ i.query.nodes → x.code < Binary64.infinityCode
  itemsDiffer : i.ItemsDiffer

/-- The statement of an admissible query selects, or fails at a limit of the store. -/
theorem failsOnlyBy_select_of_admissible
    (drafted : Drafted i.model i.query draft)
    (mapped : i.Mapped)
    (admissible : i.Admissible) :
    ∃ selection, draft.statement.grouped? = some selection ∧
      (Search.ofSelection i.store bindings selection >>= Search.rows).FailsOnlyBy
        StoreError.IsLimit := by
  have complete := mapped.complete drafted.known
  have someResult : draft.statement.projection ≠ [] := by
    intro isEmpty
    refine admissible.someColumn (List.eq_nil_of_length_eq_zero ?_)
    rw [(drafted.projection.outputs drafted.known).length_eq, isEmpty, List.length_nil]
  obtain ⟨selection, reads, resolves⟩ : ∃ selection, draft.statement.grouped? = some selection ∧
      ∀ term ∈ selection.terms, Resolves i.tables bindings term := by
    refine Statement.exists_grouped? someResult fun image isPart => ?_
    obtain ⟨e, imaged, literals⟩ := drafted.exists_preimage_with_literals image isPart
    exact exists_grouped?_resolves mapped complete admissible.itemsDiffer imaged
      fun x isNode => admissible.finite x (literals _ isNode)
  have readAs := Statement.readAs_of_grouped? reads
  refine ⟨selection, reads, Search.failsOnlyBy_select (tables_of_readAs drafted readAs complete)
    resolves ?placed ?small⟩
  case placed =>
    intro sort isSort place isPlace
    obtain ⟨key, isKey, samePlace⟩ :=
      List.exists_of_forall₂_right (forall₂_places drafted reads) isSort
    rw [length_results drafted readAs]
    exact admissible.places key isKey place (samePlace ▸ isPlace)
  case small =>
    rw [readAs.limit, drafted.limit]
    intro limit isLimit
    obtain ⟨wanted, isWanted, rfl⟩ := Option.map_eq_some_iff.mp isLimit
    exact admissible.limit wanted isWanted

/-- A query whose statement selects is selectable. -/
theorem selectable_of_select
    {results : List (List Cell)}
    (drafted : Drafted i.model i.query draft)
    (reads : draft.statement.grouped? = some selection)
    (selects : (Search.ofSelection i.store bindings selection >>= Search.rows) = .ok results) :
    i.Selectable := by
  have readAs := Statement.readAs_of_grouped? reads
  obtain ⟨search, found, success⟩ := Except.bind_eq_ok.mp selects
  constructor
  case someColumn =>
    intro isEmpty
    refine (Statement.ordering_of_grouped? reads).1 (List.eq_nil_of_length_eq_zero ?_)
    rw [readAs.results.length_eq, length_results drafted readAs, isEmpty, List.length_nil]
  case places =>
    intro key isKey place isPlace
    obtain ⟨sort, isSort, samePlace⟩ :=
      List.exists_of_forall₂_right (forall₂_places drafted reads).flip isKey
    rw [← length_results drafted readAs]
    exact Search.placed_of_ofSelection found sort isSort place (samePlace ▸ isPlace)
  case limit =>
    intro limit isLimit
    refine Search.small_of_rows success limit.toNat ?_
    rw [(Search.resolved_of_ofSelection found).limit, readAs.limit, drafted.limit, isLimit]
    rfl

/-- With its parameters bound, the statement of a draft selects what it is read as. -/
theorem select_eq_of_drafted
    (drafted : Drafted i.model i.query draft)
    (writable : i.query.Writable)
    (built : i.model.Built)
    (binds : draft.statement.Binds bindings)
    (store : Store) :
    store.select draft.statement.text bindings =
      draft.statement.grouped?.elim (.error .invalidStatement)
        fun selection => Search.ofSelection store bindings selection >>= Search.rows := by
  rw [Statement.select_text (binds.plain (drafted.named writable)) store fun name isBound =>
    (binds.names name).mp (NameMap.contains_iff_mem_names.mpr isBound),
    if_pos (drafted.nulFree writable built)]
  cases draft.statement.grouped? <;> rfl

/-- What the statement of a draft selects has a cell for each column of the records. -/
theorem length_of_select
    {results : List (List Cell)}
    (drafted : Drafted i.model i.query draft)
    (reads : draft.statement.grouped? = some selection)
    (selects : (Search.ofSelection i.store bindings selection >>= Search.rows) = .ok results) :
    ∀ cells ∈ results, cells.length = draft.columns.length := by
  obtain ⟨search, found, success⟩ := Except.bind_eq_ok.mp selects
  intro cells isResult
  obtain ⟨row, _, rfl⟩ := List.mem_map.mp (Search.mem_map_resultOn_of_rows success cells isResult)
  have names := congrArg List.length drafted.projection.names
  rw [List.length_map, List.length_map] at names
  rw [Search.resultOn, List.length_map,
    ← (Search.resolved_of_ofSelection found).results.length_eq,
    ← (Statement.readAs_of_grouped? reads).results.length_eq, names]

/-- An outcome of a run that the store does not refuse for what is asked of it. -/
inductive WithinLimits :
    Except Error (List Record) → Prop where
  | returned
    (records : List Record) :
    WithinLimits (.ok records)
  | limited
    {cause : StoreError}
    (isLimit : cause.IsLimit) :
    WithinLimits (.error (.store cause))

/-- How an accepted query runs, as far as the query decides it. -/
structure RunsWithinLimits
    (i : Interpretation)
    (database : Database σ)
    (plan : QueryPlan) :
    Prop where
  runs : i.Admissible → WithinLimits (database.run plan i.parameters).1
  refused : ¬i.Selectable → ∃ cause, (database.run plan i.parameters).1 = .error (.store cause)

/--
A query that is read from a text without NUL and has a plan runs if it is admissible: with a
table for every item that has the columns of its entity, all parameters supplied and all keys
converted, the run returns records, unless it exceeds a limit of the store.  A query that is
not even selectable is refused by the store, whatever the tables hold.
-/
theorem runsWithinLimits_of_plan
    {text : String}
    {plan : QueryPlan}
    (built : i.model.Built)
    (parsed : Query.parse text = .ok i.query)
    (noNul : '\x00' ∉ text.toList)
    (planned : (searching i.model).plan i.query = .ok plan)
    (mapped : i.Mapped)
    (sameStore : database.store = i.store)
    (supplied : ∀ name, ⟨name, .caller⟩ ∈ plan.parameters → i.parameters.contains name = true)
    (finds : database.Finds plan i.parameters i.found) :
    i.RunsWithinLimits database plan := by
  obtain ⟨draft, parameters, drafted, listed, rfl⟩ := plan_eq_ok.mp planned
  rw [QueryPlan.parameters, rowStep_steps] at supplied
  obtain ⟨bindings, areBound, _⟩ := exists_bindings_of_drafted drafted listed supplied
  have selects := select_eq_of_drafted drafted (Query.writable_of_parse parsed noNul) built
    (drafted.binds listed areBound) i.store
  have ran : (database.run ⟨steps draft parameters, draft.searches⟩ i.parameters).1 =
      (Planner.rows draft parameters).run i.store
        ((steps draft parameters).contextOf i.parameters i.found) := by
    rw [Database.run_eq_of_finds finds, sameStore, rowStep_steps]
  constructor
  case runs =>
    intro admissible
    obtain ⟨selection, reads, failsOnly⟩ :=
      failsOnlyBy_select_of_admissible drafted mapped admissible
    rw [reads] at selects
    cases isSelected : i.store.select draft.statement.text bindings with
    | error cause =>
        rw [ran, RowStep.run_eq_error areBound isSelected]
        exact .limited (failsOnly cause (selects.symm.trans isSelected))
    | ok results =>
        rw [ran, RowStep.run_eq_ok areBound isSelected
          (length_of_select drafted reads (selects.symm.trans isSelected))]
        exact .returned _
  case refused =>
    intro notSelectable
    cases isSelected : i.store.select draft.statement.text bindings with
    | error cause => exact ⟨cause, ran.trans (RowStep.run_eq_error areBound isSelected)⟩
    | ok results =>
        cases reads : draft.statement.grouped? with
        | none =>
            rw [reads, isSelected] at selects
            cases selects
        | some selection =>
            rw [reads] at selects
            exact absurd (selectable_of_select drafted reads (selects.symm.trans isSelected))
              notSelectable

end Interpretation

namespace Query

/-- Namesakes of customers that a search does not find or that have an identity. -/
def namesakes : Query where
  source := ⟨"c", "Customer"⟩
  joins := [⟨⟨"d", "Customer"⟩, .member "d" "Name", .member "c" "Name"⟩]
  filters := [.or (.not (.search "c" "acme")) (.compare (.member "c" "Id") .eq (.parameter "id"))]
  projection := [.call "upper" [.member "d" "Id"], .member "c" "Name"]
  ordering := [⟨.member "d" "Name", true⟩]
  limit? := some 9

/-- The customers whose name is below a number that is too large for a real. -/
def belowInfinity : Query where
  source := ⟨"c", "Customer"⟩
  filters := [.compare (.member "c" "Name") .lt (.literal (.real (.infinity false)))]
  projection := [.member "c" "Id"]

end Query

namespace QueryPlan

/-- The search and the statement for the namesakes. -/
def namesakes : QueryPlan where
  steps := .searchThenRows ⟨1, "search_ids_1", "customers", .literal "acme", .text⟩ {
    sql := "SELECT UPPER(\"d\".\"Id\") AS \"column1\", \"c\".\"FullName\" AS \"Name\" " ++
      "FROM \"Customer\" AS \"c\" " ++
      "INNER JOIN \"Customer\" AS \"d\" ON (\"d\".\"FullName\" = \"c\".\"FullName\") " ++
      "WHERE ((NOT \"c\".\"Id\" IN rarray(:search_ids_1)) OR (\"c\".\"Id\" = :id)) " ++
      "ORDER BY \"d\".\"FullName\" DESC LIMIT 9"
    parameters := [⟨"search_ids_1", .search⟩, ⟨"id", .caller⟩]
    columns := [⟨"column1", none⟩, ⟨"Name", some .text⟩] }
  searches := [⟨1, "search_ids_1", .literal "acme", "customers", "Customer", "Id", .text⟩]

/-- The statement for the customers below infinity. -/
def belowInfinity : QueryPlan where
  steps := .rowsOnly {
    sql := "SELECT \"c\".\"Id\" AS \"Id\" FROM \"Customer\" AS \"c\" " ++
      "WHERE (\"c\".\"FullName\" < inf)"
    parameters := []
    columns := [⟨"Id", some .text⟩] }
  searches := []

end QueryPlan

namespace Interpretation

open Planner

/-- The namesakes of customers, where two are found and one has the identity. -/
def namesakes : Interpretation where
  model := .shop
  query := .namesakes
  store := .customers
  parameters := ⟨[("id", .text "A")]⟩
  found := [.text "B", .text "A", .text "B"]

/-- The customers below infinity. -/
def belowInfinity : Interpretation where
  model := .shop
  query := .belowInfinity
  store := .customers
  parameters := ⟨[]⟩
  found := []

/-- The namesakes are admissible, so their query runs. -/
theorem runsWithinLimits_namesakes :
    namesakes.Admissible ∧ namesakes.RunsWithinLimits Database.customers .namesakes := by
  have parsed : Query.parse ("from c in Customer join d in Customer on d.Name = c.Name " ++
      "where not search(c, \"acme\") or c.Id = @id " ++
      "select upper(d.Id), c.Name order by d.Name desc take 9") = .ok .namesakes := by
    simp only [Query.parse, String.toList_append]
    decide +kernel
  have planned : (searching .shop).plan .namesakes = .ok .namesakes := by
    decide +kernel
  have supplied : ∀ name, ⟨name, .caller⟩ ∈ QueryPlan.namesakes.parameters →
      namesakes.parameters.contains name = true := by
    intro name isParameter
    obtain rfl : name = "id" := by
      simpa [QueryPlan.parameters, QueryPlan.namesakes, Steps.rowStep] using isParameter
    decide
  have limit : ∀ limit ∈ Query.namesakes.limit?, limit.toNat < 0x8000000000000000 := by
    rintro _ ⟨⟩
    decide
  have finite : ∀ x, .literal (.real x) ∈ Query.namesakes.nodes →
      x.code < Binary64.infinityCode := by
    intro x isNode
    simp [Query.nodes, Query.expressions, Query.namesakes, Expr.search, Expr.nodes,
      Expr.nodesOfAll] at isNode
  refine ⟨⟨⟨by decide +kernel, by decide +kernel, limit⟩, finite, by decide +kernel⟩,
    runsWithinLimits_of_plan Model.built_shop parsed ?noNul planned (by decide +kernel) rfl
      supplied ⟨"acme", ["B", "A", "B"], rfl, rfl, rfl⟩⟩
  case noNul =>
    simp only [String.toList_append, List.mem_append]
    decide +kernel

/-- A query that is read from a text and has a plan, and whose run the store refuses. -/
theorem refused_belowInfinity :
    Query.parse (String.ofList ("from c in Customer where c.Name < 1".toList ++
        List.replicate 309 '0' ++ ".0 select c.Id".toList)) = .ok .belowInfinity ∧
      (searching .shop).plan .belowInfinity = .ok .belowInfinity ∧
      belowInfinity.Mapped ∧ belowInfinity.Selectable ∧
      (Database.customers.run .belowInfinity ⟨[]⟩).1 =
        .error (.store (.noSuchColumn "inf")) := by
  refine ⟨?parsed, by decide +kernel, by decide +kernel,
    ⟨by decide +kernel, by decide +kernel, nofun⟩, by decide +kernel⟩
  simp only [Query.parse, String.toList_ofList, String.reduceToList]
  decide +kernel

end Interpretation

end FullTextQuery
