import FullTextQuery.Proofs.Meaning.Scalars
import FullTextQuery.Proofs.Planner.PlainStatement
import FullTextQuery.Proofs.Store.Rows

namespace FullTextQuery

/-!
# What a planned statement selects

If the statement of a draft runs without a limit, its results are the cells of
the projected expressions on the joined rows that the query selects.  Every clause is
taken through the same steps: its image, the term it is read as, and the
scalar that the term is resolved to.
-/

namespace Expr

/-- Whether search calls stand in an expression under connectives only. -/
def connectsSearches : Expr → Bool
  | .and left right => left.connectsSearches && right.connectsSearches
  | .or left right => left.connectsSearches && right.connectsSearches
  | .not operand => operand.connectsSearches
  | e => e.searchCall?.isSome || e.searchCalls.isEmpty

end Expr

namespace RelExpr

/-- Without membership tests there is none to be grouped otherwise. -/
theorem grouped_of_memberships_eq_nil
    {e : RelExpr}
    (noTests : e.memberships = []) :
    e.Grouped := by
  induction e with
  | member item property => simp [Grouped, groupedPart]
  | column tableAlias name => simp [Grouped, groupedPart]
  | literal value => simp [Grouped, groupedPart]
  | parameter name => simp [Grouped, groupedPart]
  | compare left op right leftGrouped rightGrouped =>
      obtain ⟨noLeft, noRight⟩ := List.append_eq_nil_iff.mp noTests
      refine every_compare.mpr ⟨?_, leftGrouped noLeft, rightGrouped noRight⟩
      cases right with
      | membership => simp [memberships] at noRight
      | _ => rfl
  | and left right leftGrouped rightGrouped =>
      obtain ⟨noLeft, noRight⟩ := List.append_eq_nil_iff.mp noTests
      exact every_and.mpr ⟨rfl, leftGrouped noLeft, rightGrouped noRight⟩
  | or left right leftGrouped rightGrouped =>
      obtain ⟨noLeft, noRight⟩ := List.append_eq_nil_iff.mp noTests
      exact every_or.mpr ⟨rfl, leftGrouped noLeft, rightGrouped noRight⟩
  | not operand operandGrouped => exact every_not.mpr ⟨rfl, operandGrouped noTests⟩
  | function name args argGrouped =>
      simp only [memberships, membershipsList_eq_flatMap, List.flatMap_eq_nil_iff] at noTests
      exact every_function.mpr ⟨rfl, fun arg isArg => argGrouped arg isArg (noTests arg isArg)⟩
  | membership operand valueSet search => simp [memberships] at noTests

end RelExpr

namespace Expr

variable {model : Model} {query : Query} {image : RelExpr}

/-- The image of an expression without search calls compares with no membership test. -/
theorem grouped_of_searchCalls_eq_nil
    {e : Expr}
    (imaged : e.image? model query = some image)
    (noCalls : e.searchCalls = []) :
    image.Grouped := by
  have tests := memberships_of_image? imaged
  rw [noCalls, List.forall₂_nil_left_iff] at tests
  exact RelExpr.grouped_of_memberships_eq_nil tests

/-- Where search calls stand under connectives only, no image compares with their tests. -/
theorem grouped_of_connectsSearches
    {e : Expr}
    (imaged : e.image? model query = some image)
    (connects : e.connectsSearches = true) :
    image.Grouped := by
  have ofOther : ∀ {e : Expr} {image : RelExpr}, e.image? model query = some image →
      (e.searchCall?.isSome || e.searchCalls.isEmpty) = true → image.Grouped := by
    intro e image imaged searchesOrNot
    rcases Bool.or_eq_true_iff.mp searchesOrNot with searches | searchesNot
    · obtain ⟨searched, isSearch⟩ := Option.isSome_iff_exists.mp searches
      obtain ⟨text, rfl, _⟩ := searchCall?_eq_some.mp isSearch
      obtain ⟨test, isTest, rfl⟩ := (image?_search_eq_some isSearch).mp imaged
      obtain ⟨column, rfl⟩ := exists_of_keyTest? isTest
      simp [RelExpr.Grouped, RelExpr.groupedPart]
    · exact grouped_of_searchCalls_eq_nil imaged (List.isEmpty_iff.mp searchesNot)
  induction e generalizing image with
  | and left right leftGrouped rightGrouped =>
      obtain ⟨l, r, leftImaged, rightImaged, rfl⟩ := image?_and_eq_some.mp imaged
      obtain ⟨leftConnects, rightConnects⟩ := Bool.and_eq_true_iff.mp connects
      exact RelExpr.every_and.mpr
        ⟨rfl, leftGrouped leftImaged leftConnects, rightGrouped rightImaged rightConnects⟩
  | or left right leftGrouped rightGrouped =>
      obtain ⟨l, r, leftImaged, rightImaged, rfl⟩ := image?_or_eq_some.mp imaged
      obtain ⟨leftConnects, rightConnects⟩ := Bool.and_eq_true_iff.mp connects
      exact RelExpr.every_or.mpr
        ⟨rfl, leftGrouped leftImaged leftConnects, rightGrouped rightImaged rightConnects⟩
  | not operand operandGrouped =>
      obtain ⟨o, operandImaged, rfl⟩ := image?_not_eq_some.mp imaged
      exact RelExpr.every_not.mpr ⟨rfl, operandGrouped operandImaged connects⟩
  | _ => exact ofOther imaged connects

/-- Where there is no search call, search calls stand under connectives only. -/
theorem connectsSearches_of_searchCalls_eq_nil
    {e : Expr}
    (noCalls : e.searchCalls = []) :
    e.connectsSearches = true := by
  induction e with
  | and left right leftConnects rightConnects =>
      rw [searchCalls_and, List.append_eq_nil_iff] at noCalls
      exact Bool.and_eq_true_iff.mpr ⟨leftConnects noCalls.1, rightConnects noCalls.2⟩
  | or left right leftConnects rightConnects =>
      rw [searchCalls_or, List.append_eq_nil_iff] at noCalls
      exact Bool.and_eq_true_iff.mpr ⟨leftConnects noCalls.1, rightConnects noCalls.2⟩
  | not operand operandConnects =>
      rw [searchCalls_not] at noCalls
      exact operandConnects noCalls
  | _ => simp [connectsSearches, noCalls]

/-- A search call by itself stands under connectives only. -/
theorem connectsSearches_of_searchCall?
    {e : Expr}
    {searched : String × SearchPhrase}
    (isSearch : e.searchCall? = some searched) :
    e.connectsSearches = true := by
  obtain ⟨text, rfl, _⟩ := searchCall?_eq_some.mp isSearch
  simp [connectsSearches, isSearch]

section Conjunction

/-- A conjunction connects the search calls of all that it joins. -/
theorem connectsSearches_foldl_and
    {first : Expr}
    {others : List Expr}
    (connects : first.connectsSearches = true)
    (othersConnect : ∀ e ∈ others, e.connectsSearches = true) :
    (others.foldl .and first).connectsSearches = true := by
  induction others generalizing first with
  | nil => exact connects
  | cons other others inductionHypothesis =>
      obtain ⟨otherConnects, othersConnect⟩ := List.forall_mem_cons.mp othersConnect
      exact inductionHypothesis (Bool.and_eq_true_iff.mpr ⟨connects, otherConnects⟩) othersConnect

/-- The search calls of a conjunction are those of its parts, in their order. -/
theorem searchCalls_foldl_and
    (first : Expr)
    (others : List Expr) :
    (others.foldl .and first).searchCalls =
      first.searchCalls ++ others.flatMap searchCalls := by
  induction others generalizing first with
  | nil => simp
  | cons other others inductionHypothesis =>
      rw [List.foldl_cons, inductionHypothesis, searchCalls_and, List.flatMap_cons,
        List.append_assoc]

end Conjunction

end Expr

variable [NumeralReading]

/-- A statement and the selection that it is read as, part by part. -/
structure Statement.ReadAs
    (s : Statement)
    (selection : Sql.Selection) :
    Prop where
  results : List.Forall₂ (fun item result => item.expr.grouped? = some result.term)
    s.projection selection.results
  source : selection.source = s.source
  joins : List.Forall₂ (fun joined join =>
      joined.on.grouped? = some join.on ∧ join.table = joined.table)
    s.joins selection.joins
  filter : List.Forall₂ (fun e term => e.grouped? = some term)
    s.predicate?.toList selection.filter?.toList
  limit : selection.limit? = s.limit?.map UInt64.toNat

/-- The parts of a statement are read as the parts of the selection. -/
theorem Statement.readAs_of_grouped?
    {s : Statement}
    {selection : Sql.Selection}
    (reads : s.grouped? = some selection) :
    s.ReadAs selection := by
  unfold grouped? at reads
  simp only [Option.bind_eq_bind, Option.pure_def] at reads
  split at reads
  · cases reads
  simp only [Option.bind_eq_some_iff, Option.some.injEq, List.mapM_eq_some] at reads
  obtain ⟨results, areResults, joins, areJoins, filter?, isFilter, ordering, _, rfl⟩ := reads
  refine ⟨areResults.imp ?_, rfl, areJoins.imp ?_, ?_, rfl⟩
  · intro item result isResult
    obtain ⟨term, reads, rfl⟩ := Option.map_eq_some_iff.mp isResult
    exact reads
  · intro joined join isJoin
    obtain ⟨term, reads, rfl⟩ := Option.map_eq_some_iff.mp isJoin
    exact ⟨reads, rfl⟩
  · cases isPredicate : s.predicate? with
    | none =>
        rw [isPredicate] at isFilter
        obtain rfl : none = filter? := Option.some.inj isFilter
        exact .nil
    | some e =>
        rw [isPredicate] at isFilter
        obtain ⟨term, reads, rfl⟩ : ∃ term, e.grouped? = some term ∧ some term = filter? := by
          simpa [Option.mapM] using isFilter
        exact .cons reads .nil

namespace Interpretation

open Store Planner

section Parts

variable (i : Interpretation) (bindings : Bindings)

/-- Whether the image of an expression is read as written, with all that it reads supplied. -/
structure Readable
    (e : Expr)
    (image : RelExpr) :
    Prop where
  imaged : e.image? i.model i.query = some image
  grouped : image.Grouped
  supplied : ∀ parameter ∈ image.uses, i.Supplied bindings parameter
  readsBack : ∀ x, .literal (.real x) ∈ e.nodes → x.ReadsBack
  found : ∀ call ∈ e.searchCalls, i.FoundFor call.1

/-- The filters of a query as one condition. -/
def filter? :
    Option Expr :=
  match i.query.filters with
  | [] => none
  | filter :: filters => some (filters.foldl .and filter)

/-- Whether the clauses of a statement that decide its results are readable. -/
structure ReadableStatement
    (s : Statement) :
    Prop where
  results : List.Forall₂ (fun e output => i.Readable bindings e output.expr)
    (i.query.projected i.model) s.projection
  joins : List.Forall₂ (fun join joined =>
      i.Readable bindings (.compare join.left .eq join.right) joined.on)
    i.query.joins s.joins
  filter : List.Forall₂ (i.Readable bindings) i.filter?.toList s.predicate?.toList

end Parts

variable {i : Interpretation} {bindings : Bindings} {draft : Draft} {selection : Sql.Selection}
  {search : Search}

/-- The scalar that the image of an expression is resolved to represents the expression. -/
theorem Readable.represents
    {e : Expr}
    {image : RelExpr}
    {term : Sql.Term}
    {scalar : Scalar}
    (readable : i.Readable bindings e image)
    (complete : i.Complete)
    (agrees : i.Agrees)
    (reads : image.grouped? = some term)
    (resolves : Scalar.ofTerm i.tables bindings term = .ok scalar) :
    i.Represents scalar e := by
  refine (faithful_of_readAs complete agrees
    ⟨image, readable.imaged, readable.grouped, reads⟩).resolved ?_ readable.found resolves
  intro node isNode
  refine ⟨fun parameter isUse => readable.supplied parameter ?_, ?_⟩
  · rw [Expr.uses_of_image? readable.imaged]
    exact List.mem_filterMap.mpr ⟨node, isNode, isUse⟩
  · rintro x rfl
    exact readable.readsBack x isNode

/-- The filter is true exactly if all filters are. -/
theorem all_filters
    (row : JoinedRow) :
    i.filter?.toList.all (i.isTrue row) = i.query.filters.all (i.isTrue row) := by
  have conjoined : ∀ (others : List Expr) (first : Expr),
      i.isTrue row (others.foldl .and first) =
        (i.isTrue row first && others.all (i.isTrue row)) := by
    intro others
    induction others with
    | nil => simp
    | cons other others inductionHypothesis =>
        intro first
        rw [List.foldl_cons, inductionHypothesis, isTrue_and, List.all_cons, Bool.and_assoc]
  unfold filter?
  cases i.query.filters with
  | nil => rfl
  | cons filter filters => simp [conjoined]

/-- The clauses of the statement of a draft are readable. -/
theorem readableStatement_of_drafted
    (drafted : Drafted i.model i.query draft)
    (connected : ∀ filter ∈ i.query.filters, filter.connectsSearches = true)
    (readsBack : i.ReadsBack)
    (supplied : ∀ parameter ∈ draft.statement.uses, i.Supplied bindings parameter)
    (found : ∀ call ∈ i.query.filterCalls, i.FoundFor call.1) :
    i.ReadableStatement bindings draft.statement := by
  simp only [Interpretation.ReadsBack, Query.conditions, List.forall_mem_append,
    List.forall_mem_map] at readsBack
  obtain ⟨⟨filterReadsBack, joinReadsBack⟩, projectedReadsBack⟩ := readsBack
  have partSupplied : ∀ image ∈ draft.statement.expressions, ∀ parameter ∈ image.uses,
      i.Supplied bindings parameter :=
    fun image isPart parameter isUse =>
      supplied parameter (List.mem_flatMap.mpr ⟨image, isPart, isUse⟩)
  have withoutCalls : ∀ {e image}, e.image? i.model i.query = some image →
      image ∈ draft.statement.expressions → e.searchCalls = [] →
      (∀ x, .literal (.real x) ∈ e.nodes → x.ReadsBack) → i.Readable bindings e image :=
    fun imaged isPart noCalls readsBack =>
      ⟨imaged, Expr.grouped_of_searchCalls_eq_nil imaged noCalls, partSupplied _ isPart, readsBack,
        by simp [noCalls]⟩
  refine ⟨?results, ?joins, ?filter⟩
  case results =>
    refine List.forall₂_imp_of_mem ?_ (drafted.projection.outputs drafted.known)
    intro e isProjected output isOutput imaged
    refine withoutCalls imaged ?_ (drafted.searchCalls_projected e isProjected)
      (projectedReadsBack e isProjected)
    simp only [Statement.expressions, List.mem_append, List.mem_map]
    exact .inl (.inl (.inl ⟨output, isOutput, rfl⟩))
  case joins =>
    refine List.forall₂_imp_of_mem ?_ drafted.joins
    intro join isJoin joined isJoined joinDrafted
    refine withoutCalls joinDrafted.on ?_ (drafted.searchCalls_join join isJoin)
      (joinReadsBack join isJoin)
    simp only [Statement.expressions, List.mem_append, List.mem_map]
    exact .inl (.inl (.inr ⟨joined, isJoined, rfl⟩))
  case filter =>
    have related := drafted.filterImages
    have isPredicate := drafted.predicate
    unfold Query.filterCalls at found
    unfold filter?
    generalize i.query.filters = filters, draft.filters.map (·.lowered) = images
      at related isPredicate connected found filterReadsBack
    cases related with
    | nil => simp [isPredicate, conjunction?]
    | @cons filter image filters images imaged othersImaged =>
        obtain ⟨connects, othersConnect⟩ := List.forall_mem_cons.mp connected
        have imaged := image?_foldl_and imaged othersImaged
        rw [isPredicate]
        refine .cons ⟨imaged, ?_, partSupplied _ ?_, fun x isNode => ?_, ?_⟩ .nil
        · exact Expr.grouped_of_connectsSearches imaged
            (Expr.connectsSearches_foldl_and connects othersConnect)
        · simp [Statement.expressions, isPredicate, conjunction?]
        · obtain ⟨part, isPart, inPart⟩ := exists_of_literal_mem_foldl_and isNode
          exact filterReadsBack part isPart x inPart
        · rwa [Expr.searchCalls_foldl_and]

omit [NumeralReading] in
/-- What is supplied for a parameter is bound to its name. -/
theorem Supplied.contains
    {parameter : StatementParameter}
    (supplied : i.Supplied bindings parameter) :
    bindings.contains parameter.name = true := by
  obtain ⟨name, supplier⟩ := parameter
  cases supplier with
  | caller =>
      obtain ⟨value, _, isBound⟩ := supplied
      simp [NameMap.contains, isBound]
  | search =>
      have isBound : bindings.get? name = some (.array i.found) := supplied
      simp [NameMap.contains, isBound]

/-- A statement text of a draft that can be searched with is read as the statement. -/
theorem exists_readAs_of_search
    (drafted : Drafted i.model i.query draft)
    (supplied : ∀ parameter ∈ draft.statement.uses, i.Supplied bindings parameter)
    (searched : i.store.search draft.statement.text bindings = .ok search) :
    ∃ selection, draft.statement.ReadAs selection ∧
      search.Resolved i.store bindings selection := by
  have named : ∀ parameter ∈ draft.statement.uses,
      Sql.isParameterName parameter.name = true :=
    fun parameter isUse =>
      Store.isParameterName_of_search searched _ (supplied parameter isUse).contains
  unfold Store.search at searched
  split at searched
  · cases searched
  · rename_i prepared isPrepared
    obtain ⟨other, found, searched⟩ := Except.bind_eq_ok.mp searched
    split at searched
    · cases searched
    · obtain rfl := Except.ok.inj searched
      rw [Statement.prepare?_text (drafted.plain named)] at isPrepared
      split at isPrepared
      · obtain ⟨selection, reads, rfl⟩ := Option.map_eq_some_iff.mp isPrepared
        exact ⟨_, Statement.readAs_of_grouped? reads, Search.resolved_of_ofSelection found⟩
      · cases isPrepared

/-- The tables that are selected from are those of the items' entities. -/
theorem forall₂_tables
    (drafted : Drafted i.model i.query draft)
    (readAs : draft.statement.ReadAs selection) :
    List.Forall₂ (fun source ref =>
        ∃ entity, i.model.entity? source.entity = some entity ∧
          ref = ⟨entity.table, source.item⟩)
      i.query.sources selection.tables := by
  refine .cons ?_ ?_
  · obtain ⟨root, known, isSource⟩ := drafted.source
    exact ⟨root, known, readAs.source.trans isSource⟩
  · simp only [List.forall₂_map_left_iff, List.forall₂_map_right_iff]
    refine (List.forall₂_comp.mp ⟨_, drafted.joins, readAs.joins⟩).imp ?_
    rintro join term ⟨joined, joinDrafted, _, sameTable⟩
    obtain ⟨entity, known, isTable⟩ := joinDrafted.table
    exact ⟨entity, known, sameTable.trans isTable⟩

/-- The tables that are searched are those of the items, of which none is without. -/
theorem tables_eq_sources
    (drafted : Drafted i.model i.query draft)
    (readAs : draft.statement.ReadAs selection)
    (resolved : search.Resolved i.store bindings selection) :
    i.Complete ∧ i.tables = search.sources := by
  have bound : List.Forall₂ (fun source table => i.bound? source = some table)
      i.query.sources search.sources := by
    refine (List.forall₂_comp.mp ⟨_, forall₂_tables drafted readAs, resolved.sources⟩).imp ?_
    rintro source table ⟨_, ⟨entity, known, rfl⟩, isBound⟩
    obtain ⟨stored, isStored, ⟨⟩⟩ := Except.bind_eq_ok.mp isBound
    unfold Store.table at isStored
    split at isStored
    · rename_i found
      obtain rfl := Except.ok.inj isStored
      simp [bound?, known, found]
    · cases isStored
  have same : i.tables = search.sources := List.filterMap_eq_of_forall₂ bound
  refine ⟨?_, same⟩
  rwa [Complete, same]

/-- The results that are searched for represent the projected expressions. -/
theorem represents_results
    (readable : i.ReadableStatement bindings draft.statement)
    (readAs : draft.statement.ReadAs selection)
    (resolved : search.Resolved i.store bindings selection)
    (complete : i.Complete)
    (agrees : i.Agrees)
    (same : i.tables = search.sources) :
    List.Forall₂ (fun e scalar => i.Represents scalar e)
      (i.query.projected i.model) search.results := by
  have composed := List.forall₂_comp.mp
    ⟨_, List.forall₂_comp.mp ⟨_, readable.results, readAs.results⟩, resolved.results⟩
  refine composed.imp ?_
  rintro e scalar ⟨result, ⟨output, isReadable, reads⟩, resolves⟩
  exact isReadable.represents complete agrees reads (same ▸ resolves)

/-- The conditions of a search are all true exactly if those of the query are. -/
theorem all_conditions
    (readable : i.ReadableStatement bindings draft.statement)
    (readAs : draft.statement.ReadAs selection)
    (resolved : search.Resolved i.store bindings selection)
    (complete : i.Complete)
    (agrees : i.Agrees)
    (same : i.tables = search.sources)
    {row : JoinedRow}
    (isRow : row ∈ i.allRows) :
    search.conditions.all (Scalar.isTrue row) = i.query.conditions.all (i.isTrue row) := by
  obtain ⟨filters, joins, filtersResolved, joinsResolved, areConditions⟩ := resolved.conditions
  have allSame : ∀ {es : List Expr} {scalars : List Scalar},
      List.Forall₂ (fun e scalar => i.Represents scalar e) es scalars →
      scalars.all (Scalar.isTrue row) = es.all (i.isTrue row) := by
    intro es scalars related
    induction related with
    | nil => rfl
    | cons represents _ inductionHypothesis =>
        rw [List.all_cons, List.all_cons, inductionHypothesis, Scalar.isTrue,
          represents.cell row isRow, isTrue]
  have filtersSame : List.Forall₂ (fun e scalar => i.Represents scalar e)
      i.filter?.toList filters := by
    refine (List.forall₂_comp.mp
      ⟨_, List.forall₂_comp.mp ⟨_, readable.filter, readAs.filter⟩, filtersResolved⟩).imp ?_
    rintro e scalar ⟨term, ⟨image, isReadable, reads⟩, resolves⟩
    exact isReadable.represents complete agrees reads (same ▸ resolves)
  have joinsSame : List.Forall₂ (fun e scalar => i.Represents scalar e)
      (i.query.joins.map fun join => .compare join.left .eq join.right) joins := by
    rw [List.forall₂_map_left_iff]
    refine (List.forall₂_comp.mp
      ⟨_, List.forall₂_comp.mp ⟨_, readable.joins, readAs.joins⟩, joinsResolved⟩).imp ?_
    rintro join scalar ⟨term, ⟨joined, isReadable, reads, _⟩, resolves⟩
    exact isReadable.represents complete agrees reads (same ▸ resolves)
  rw [areConditions, List.all_flatMap]
  simp only [Scalar.all_conjuncts]
  rw [Query.conditions, List.all_append, List.all_append, allSame joinsSame, allSame filtersSame,
    all_filters]

/--
A statement of a draft that runs without a limit has the cells of the projected
expressions as its results, on the joined rows that the query selects, in some order.
-/
theorem perm_of_select
    (drafted : Drafted i.model i.query draft)
    (noLimit : i.query.limit? = none)
    (connected : ∀ filter ∈ i.query.filters, filter.connectsSearches = true)
    (agrees : i.Agrees)
    (readsBack : i.ReadsBack)
    (supplied : ∀ parameter ∈ draft.statement.uses, i.Supplied bindings parameter)
    (found : ∀ call ∈ i.query.filterCalls, i.FoundFor call.1)
    {results : List (List Cell)}
    (selects : i.store.select draft.statement.text bindings = .ok results) :
    results.Perm (i.rows.map fun row => (i.query.projected i.model).map (i.cell row)) := by
  obtain ⟨search, searched, success⟩ := Except.bind_eq_ok.mp selects
  obtain ⟨selection, readAs, resolved⟩ := exists_readAs_of_search drafted supplied searched
  obtain ⟨complete, same⟩ := tables_eq_sources drafted readAs resolved
  have readable := readableStatement_of_drafted drafted connected readsBack supplied found
  have unlimited : search.limit? = none := by
    rw [resolved.limit, readAs.limit, drafted.limit, noLimit]
    rfl
  have sameRows : search.selected = i.rows := by
    rw [Search.selected, rows, allRows, same]
    refine List.filter_congr fun row isRow => ?_
    exact all_conditions readable readAs resolved complete agrees same
      (by rwa [allRows, same])
  have sameResults : ∀ row ∈ i.rows,
      search.resultOn row = (i.query.projected i.model).map (i.cell row) := by
    intro row isRow
    have represented :=
      represents_results readable readAs resolved complete agrees same
    rw [Search.resultOn, ← List.forall₂_eq_eq_eq, List.forall₂_map_left_iff,
      List.forall₂_map_right_iff]
    exact represented.flip.imp fun scalar e represents =>
      represents.cell row (List.mem_of_mem_filter isRow)
  rw [← List.map_congr_left sameResults, ← sameRows]
  exact Search.perm_of_rows unlimited success

end Interpretation

end FullTextQuery
