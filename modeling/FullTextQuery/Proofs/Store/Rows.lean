import FullTextQuery.Proofs.Store.Evaluation
import FullTextQuery.Store.Selection

namespace FullTextQuery.Store.Search

/-!
# What a selection selects

The names of a selection are found part by part.  Without a limit, a selection
that succeeds has the results of exactly those joined rows on which every
condition is true, each of them once; sort terms only decide their order.
-/

variable [NumeralReading]

/-- The joined rows on which every condition is true. -/
def selected
    (search : Search) :
    List JoinedRow :=
  (joinedRows search.sources).filter fun row => search.conditions.all (Scalar.isTrue row)

/-- The results on a joined row. -/
def resultOn
    (search : Search)
    (row : JoinedRow) :
    List Cell :=
  search.results.map (Scalar.cell row)

/-- A selection whose names have been found, part by part. -/
structure Resolved
    (store : Store)
    (bindings : Bindings)
    (selection : Sql.Selection)
    (search : Search) :
    Prop where
  sources : List.Forall₂ (fun ref source => boundTable store ref = .ok source)
    selection.tables search.sources
  results : List.Forall₂ (fun result scalar =>
      Scalar.ofTerm search.sources bindings result.term = .ok scalar)
    selection.results search.results
  conditions : ∃ filters joins,
    List.Forall₂ (fun term scalar => Scalar.ofTerm search.sources bindings term = .ok scalar)
      selection.filter?.toList filters ∧
    List.Forall₂ (fun join scalar => Scalar.ofTerm search.sources bindings join.on = .ok scalar)
      selection.joins joins ∧
    search.conditions = (filters ++ joins).flatMap Scalar.conjuncts
  limit : search.limit? = selection.limit?

variable {search : Search} {row : JoinedRow}

omit [NumeralReading] in
/-- The parts of a selection are found where its names are. -/
theorem resolved_of_ofSelection
    {store : Store}
    {bindings : Bindings}
    {selection : Sql.Selection}
    (found : ofSelection store bindings selection = .ok search) :
    search.Resolved store bindings selection := by
  simp only [ofSelection] at found
  split at found
  · rw [Except.error_bind] at found
    cases found
  · split at found
    · rw [Except.error_bind] at found
      cases found
    · simp only [Except.pure_eq_ok, Except.bind_eq_ok, Except.mapM_eq_ok] at found
      obtain ⟨sources, areSources, results, areResults, filters, areFilters, joins, areJoins,
        _, _, ⟨⟩⟩ := found
      exact ⟨areSources, areResults, ⟨filters, joins, areFilters, areJoins, rfl⟩, rfl⟩

/-- An evaluation of conditions that succeeds tells whether all are true. -/
theorem eq_all_of_allHold
    {conditions : List Scalar}
    {found : Bool}
    (evaluates : allHold row conditions = .ok found) :
    found = conditions.all (Scalar.isTrue row) := by
  induction conditions with
  | nil =>
      exact (Except.ok.inj evaluates).symm
  | cons condition conditions inductionHypothesis =>
      simp only [allHold, Except.bind_eq_ok] at evaluates
      obtain ⟨first, holds, rest⟩ := evaluates
      rw [List.all_cons, ← Scalar.eq_isTrue_of_holds holds]
      cases first with
      | true => simpa using inductionHypothesis (by simpa using rest)
      | false => simpa [eq_comm] using rest

/-- Values that are computed are the cells of the expressions. -/
theorem eq_map_of_values
    {scalars : List Scalar}
    {cells : List Cell}
    (evaluates : values row scalars = .ok cells) :
    cells = scalars.map (Scalar.cell row) := by
  have related : List.Forall₂ (· = ·) cells (scalars.map (Scalar.cell row)) := by
    rw [List.forall₂_map_right_iff]
    exact (Except.mapM_eq_ok.mp evaluates).flip.imp fun _ _ => Scalar.eq_cell_of_value
  rwa [List.forall₂_eq_eq_eq] at related

/-- The first results, as many as wanted. -/
def atMost
    (limit? : Option Nat)
    (results : List α) :
    List α :=
  limit?.elim results results.take

/-- In the order of the rows, the results are the first ones of the selected rows. -/
theorem eq_of_firstRows
    {limit? : Option Nat}
    {rows : List JoinedRow}
    {results : List (List Cell)}
    (success : firstRows search limit? rows = .ok results) :
    results = atMost limit?
      ((rows.filter fun row => search.conditions.all (Scalar.isTrue row)).map
        search.resultOn) := by
  induction rows generalizing limit? results with
  | nil =>
      obtain rfl : [] = results := by
        match limit? with
        | some 0 => simpa [firstRows] using success
        | some (_ + 1) => simpa [firstRows] using success
        | none => simpa [firstRows] using success
      cases limit? <;> simp [atMost]
  | cons row rows inductionHypothesis =>
      by_cases noneWanted : limit? = some 0
      · obtain rfl : [] = results := by simpa [noneWanted, firstRows] using success
        simp [noneWanted, atMost]
      · rw [firstRows.eq_3 _ _ _ _ (by simpa using noneWanted), Except.bind_eq_ok] at success
        obtain ⟨isSelected, holds, rest⟩ := success
        rw [List.filter_cons, ← eq_all_of_allHold holds]
        cases isSelected with
        | true =>
            simp only [↓reduceIte, Except.bind_eq_ok] at rest
            obtain ⟨cells, areValues, others, areOthers, ⟨⟩⟩ := rest
            rw [if_pos rfl, List.map_cons, eq_map_of_values areValues,
              inductionHypothesis areOthers]
            match limit?, noneWanted with
            | none, _ => rfl
            | some (limit + 1), _ => rfl
        | false =>
            exact inductionHypothesis (by simpa using rest)

/-- The results kept behind a further row, which is left out if it is behind the wanted ones. -/
def keep
    (search : Search)
    (kept : List Ranked)
    (row : JoinedRow) :
    List Ranked :=
  let key := search.ordering.map fun sort => sort.scalar.cell row
  if isBehind search kept key then kept
  else wanted search (insertRanked search.ordering ⟨key, search.resultOn row⟩ kept)

/-- With sort terms, the results are those of the selected rows, kept one after another. -/
theorem eq_of_rankedRows
    {rows : List JoinedRow}
    {kept results : List Ranked}
    (success : rankedRows search kept rows = .ok results) :
    results =
      (rows.filter fun row => search.conditions.all (Scalar.isTrue row)).foldl
        search.keep kept := by
  induction rows generalizing kept with
  | nil =>
      obtain rfl : kept = results := by simpa [rankedRows] using success
      rfl
  | cons row rows inductionHypothesis =>
      simp only [rankedRows, Except.bind_eq_ok] at success
      obtain ⟨isSelected, holds, rest⟩ := success
      rw [List.filter_cons, ← eq_all_of_allHold holds]
      cases isSelected with
      | true =>
          simp only [↓reduceIte, Except.bind_eq_ok] at rest
          obtain ⟨key, areKey, rest⟩ := rest
          obtain rfl := eq_map_of_values areKey
          rw [if_pos rfl, List.foldl_cons, keep]
          simp only [List.map_map, Function.comp_def] at rest
          split at rest
          · rename_i behind
            rw [if_pos behind]
            exact inductionHypothesis rest
          · rename_i notBehind
            obtain ⟨cells, areValues, ranked⟩ := Except.bind_eq_ok.mp rest
            obtain rfl : cells = search.resultOn row := eq_map_of_values areValues
            rw [if_neg notBehind]
            exact inductionHypothesis ranked
      | false =>
          exact inductionHypothesis (by simpa using rest)

omit [NumeralReading] in
/-- A ranked result is put somewhere among the others. -/
theorem insertRanked_perm
    (ordering : List SortScalar)
    (ranked : Ranked)
    (kept : List Ranked) :
    (insertRanked ordering ranked kept).Perm (ranked :: kept) := by
  induction kept with
  | nil => exact .refl _
  | cons other others inductionHypothesis =>
      unfold insertRanked
      split
      · exact .refl _
      · exact (inductionHypothesis.cons other).trans (.swap ranked other others)

/-- Without a limit, every row is kept. -/
theorem foldl_keep_perm
    (noLimit : search.limit? = none)
    (rows : List JoinedRow)
    (kept : List Ranked) :
    ((rows.foldl search.keep kept).map (·.cells)).Perm
      (kept.map (·.cells) ++ rows.map search.resultOn) := by
  induction rows generalizing kept with
  | nil => simp
  | cons row rows inductionHypothesis =>
      rw [List.foldl_cons, List.map_cons]
      refine (inductionHypothesis _).trans ?_
      simp only [keep, isBehind, wanted, noLimit, Bool.false_eq_true, ↓reduceIte]
      exact (((insertRanked_perm search.ordering _ kept).map (·.cells)).append_right _).trans
        List.perm_middle.symm

/-- The results of the selected rows, in the order of the sort terms, as many as wanted. -/
def answer
    (search : Search) :
    List (List Cell) :=
  if search.limit? = some 0 then
    []
  else
    match search.ordering with
    | [] => atMost search.limit? (search.selected.map search.resultOn)
    | _ :: _ => (search.selected.foldl search.keep []).map (·.cells)

/-- A selection that succeeds has the results of the selected rows. -/
theorem eq_answer_of_rows
    {results : List (List Cell)}
    (success : search.rows = .ok results) :
    results = search.answer := by
  unfold rows at success
  split at success
  · cases success
  unfold answer
  split at success
  · rename_i noneWanted
    rw [if_pos noneWanted]
    exact (Except.ok.inj success).symm
  · rename_i someWanted
    rw [if_neg someWanted]
    obtain ⟨anyway, constantsHold, rest⟩ := Except.bind_eq_ok.mp success
    cases anyway with
    | false =>
        obtain rfl : [] = results := by simpa using rest
        have someFalse := eq_all_of_allHold constantsHold
        simp only [Bool.false_eq, List.all_eq_false, List.mem_filter] at someFalse
        obtain ⟨condition, ⟨isCondition, constant⟩, notTrue⟩ := someFalse
        have noneSelected : search.selected = [] := by
          refine List.filter_eq_nil_iff.mpr fun row _ allTrue => ?_
          have isTrue := List.all_eq_true.mp allTrue condition isCondition
          rw [Scalar.isTrue, Scalar.cell_eq_of_isConstant constant row []] at isTrue
          exact notTrue isTrue
        rw [noneSelected]
        cases search.ordering with
        | nil => cases search.limit? <;> simp [atMost]
        | cons => rfl
    | true =>
        simp only [↓reduceIte] at rest
        cases isOrdering : search.ordering with
        | nil =>
            simp only [isOrdering] at rest
            exact eq_of_firstRows rest
        | cons first others =>
            simp only [isOrdering, Except.bind_eq_ok] at rest
            obtain ⟨ranked, areRanked, ⟨⟩⟩ := rest
            rw [eq_of_rankedRows areRanked]
            rfl

/-- A selection without a limit has the results of the selected rows, in some order. -/
theorem perm_of_rows
    (noLimit : search.limit? = none)
    {results : List (List Cell)}
    (success : search.rows = .ok results) :
    results.Perm (search.selected.map search.resultOn) := by
  rw [eq_answer_of_rows success, answer, noLimit, if_neg (by simp)]
  cases search.ordering with
  | nil => exact .refl _
  | cons first others => exact foldl_keep_perm noLimit search.selected []

/-- What is kept are results on rows that were seen. -/
theorem cells_mem_of_mem_foldl_keep
    {rows : List JoinedRow}
    {kept : List Ranked}
    {ranked : Ranked}
    (isKept : ranked ∈ rows.foldl search.keep kept) :
    ranked ∈ kept ∨ ranked.cells ∈ rows.map search.resultOn := by
  induction rows generalizing kept with
  | nil => exact .inl isKept
  | cons row rows inductionHypothesis =>
      rcases inductionHypothesis isKept with isEarlier | isLater
      · rw [keep] at isEarlier
        split at isEarlier
        · exact .inl isEarlier
        · have isInserted : ranked ∈ insertRanked search.ordering
              ⟨search.ordering.map fun sort => sort.scalar.cell row, search.resultOn row⟩ kept := by
            unfold wanted at isEarlier
            split at isEarlier
            · exact List.mem_of_mem_take isEarlier
            · exact isEarlier
          rcases List.mem_cons.mp ((insertRanked_perm _ _ kept).mem_iff.mp isInserted) with
            rfl | isThere
          · exact .inr (by simp)
          · exact .inl isThere
      · exact .inr (List.mem_cons_of_mem _ isLater)

/-- A selection that succeeds has results on rows only. -/
theorem mem_map_resultOn_of_rows
    {results : List (List Cell)}
    (success : search.rows = .ok results) :
    ∀ cells ∈ results, cells ∈ search.selected.map search.resultOn := by
  intro cells isResult
  rw [eq_answer_of_rows success, answer] at isResult
  split at isResult
  · exact absurd isResult List.not_mem_nil
  · split at isResult
    · unfold atMost at isResult
      cases isLimit : search.limit? with
      | none => simpa [isLimit] using isResult
      | some limit =>
          rw [isLimit] at isResult
          exact List.mem_of_mem_take isResult
    · obtain ⟨ranked, isRanked, rfl⟩ := List.mem_map.mp isResult
      exact (cells_mem_of_mem_foldl_keep isRanked).resolve_left List.not_mem_nil

end FullTextQuery.Store.Search
