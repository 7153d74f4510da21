import FullTextQuery.Binary64.Nearest
import FullTextQuery.Proofs.Meaning.Run
import FullTextQuery.Proofs.Planner.AlikeRuns
import FullTextQuery.Proofs.Planner.SearchText
import FullTextQuery.Proofs.Relational.FixedImages

namespace FullTextQuery

/-!
# A parameter means its value

A query with a parameter fixed runs as the query does with the value supplied: it asks the
search service the same and gives the same records.  The exceptions are the places at which a
literal is read as something else than its value: null on the right of an equality, a
number as a sort term, and zero joined with other conditions, where names are not looked for.
-/

namespace Query

/-- The query with a literal in the place of a parameter. -/
def fix
    (query : Query)
    (name : String)
    (value : Value) :
    Query :=
  query.replace (.fix name value)

/-- Whether a parameter is joined with a condition, as two filters are. -/
def Conjoins
    (query : Query)
    (name : String) :
    Prop :=
  (∃ e ∈ query.clauses, ∃ left right, .and left right ∈ e.nodes ∧
    (left = .parameter name ∨ right = .parameter name)) ∨
  1 < query.filters.length ∧ .parameter name ∈ query.filters

/-- Where a value may be supplied and written, and is read as itself when it is written. -/
structure Fixable
    (query : Query)
    (name : String)
    (value : Value) :
    Prop where
  isName : Sql.isParameterName name = true
  notGenerated : name ≠ "search_ids_1"
  notReal : ∀ x, value ≠ .real x
  /-- What is searched for is a text. -/
  text : ∀ source, (source, .parameter name) ∈ query.searchCalls → ∃ text, value = .text text
  /-- In a statement, a text ends at a NUL. -/
  nulFree : ∀ text, value = .text text → .parameter name ∈ query.nodes →
    Sql.nulFree text = true
  /-- Null is not written on the right of an equality. -/
  null : value = .null → ∀ e ∈ query.clauses, ∀ left op,
    .compare left op (.parameter name) ∈ e.nodes → op ≠ .eq ∧ op ≠ .notEq
  /-- No number is written as a sort term, nor zero joined in one. -/
  sortKey : ∀ key ∈ query.ordering, ∀ n, value = .integer n → key.expr ≠ .parameter name ∧
    (n = 0 → ∀ left right, .and left right ∈ key.expr.nodes →
      left ≠ .parameter name ∧ right ≠ .parameter name)

variable {query : Query} {name : String} {value : Value}

namespace Fixable

variable (fixable : query.Fixable name value)

include fixable

/-- The value that a parameter is fixed to has no NUL. -/
theorem literal_nulFree
    (isNode : .parameter name ∈ query.nodes) :
    (RelExpr.literal value).NulFree := by
  cases isValue : value with
  | text text =>
      simpa [RelExpr.NulFree, RelExpr.nulFreePart] using fixable.nulFree text isValue isNode
  | _ => simp [RelExpr.NulFree, RelExpr.nulFreePart]

/-- What is fixable in a query is so in its expressions. -/
theorem of_mem
    {e : Expr}
    (isClause : e ∈ query.clauses) :
    e.Fixable name value (value = .integer 0 ∧ query.Conjoins name) where
  nulFree := fun isNode => fixable.literal_nulFree (mem_nodes_of_clause isClause isNode nofun)
  null := fun isNull => fixable.null isNull e isClause
  zero := fun isZero left right isNode bare =>
    ⟨isZero, .inl ⟨e, isClause, left, right, isNode, bare⟩⟩

/-- In a sort key, no zero is joined that the parameter is fixed to. -/
theorem of_mem_ordering
    {key : SortKey}
    (isKey : key ∈ query.ordering) :
    key.expr.Fixable name value False := by
  have isClause : key.expr ∈ query.clauses := by
    simp only [clauses, List.mem_append]
    exact .inr (List.mem_map_of_mem isKey)
  obtain ⟨nulFree, null, _⟩ := fixable.of_mem isClause
  refine ⟨nulFree, null, fun isZero left right isNode bare => ?_⟩
  obtain ⟨notLeft, notRight⟩ := (fixable.sortKey key isKey 0 isZero).2 rfl left right isNode
  exact bare.elim notLeft notRight

/-- The expressions of a query, each with the parameter fixed in it. -/
theorem related_fix :
    query.Related (fun e other =>
        e.Fixable name value (value = .integer 0 ∧ query.Conjoins name) ∧
          other = e.replace (.fix name value))
      (query.fix name value) := by
  have related := query.related_replace (.fix name value)
  have each := fun e => fixable.of_mem (e := e)
  simp only [clauses, List.mem_append, or_imp, forall_and, List.mem_map,
    forall_exists_index, and_imp, forall_apply_eq_imp_iff₂] at each
  obtain ⟨⟨⟨filters, joins⟩, projection⟩, ordering⟩ := each
  exact {
    source := rfl
    joins := List.forall₂_imp_of_mem
      (fun join isJoin _ _ both => ⟨both.1, joins join isJoin, both.2⟩) related.joins
    filters := List.forall₂_imp_of_mem
      (fun e isFilter _ _ same => ⟨filters e isFilter, same⟩) related.filters
    projection := List.forall₂_imp_of_mem
      (fun e isProjected _ _ same => ⟨projection e isProjected, same⟩) related.projection
    ordering := List.forall₂_imp_of_mem
      (fun key isKey _ _ both => ⟨⟨ordering key isKey, both.1⟩, both.2⟩) related.ordering
    limit := rfl }

end Fixable

end Query

namespace SearchStep

variable {step : SearchStep} {context : RunContext} {name : String} {value : Value}

/-- With a parameter fixed in it, a search step has the text that is supplied. -/
theorem alike_fix
    (isSupplied : context.parameters.get? name = some value)
    (isText : step.phrase = .parameter name → ∃ text, value = .text text) :
    step.Alike context (step.withPhrase ((Replacement.fix name value).phrase step.phrase)) := by
  refine ⟨rfl, rfl, rfl, ?_⟩
  unfold text withPhrase
  cases isPhrase : step.phrase with
  | literal text => rfl
  | parameter other =>
      by_cases isName : other = name
      · subst isName
        obtain ⟨text, rfl⟩ := isText isPhrase
        simp [Replacement.fix, RunContext.supplied, isSupplied]
      · cases value <;> simp [Replacement.fix, isName]

end SearchStep

namespace RowStep

/-- No cells are bound under a name that is no value set of a row step. -/
theorem cells_bindings_eq_nil
    {step : RowStep}
    {context : RunContext}
    {bindings : Store.Bindings}
    (distinct : Sql.Distinct step.parameters)
    (areBound : step.bindings context = .ok bindings)
    {name : String}
    (notSearch : ⟨name, .search⟩ ∉ step.parameters) :
    bindings.cells name = [] := by
  unfold Store.Bindings.cells
  by_cases isName : name ∈ step.parameters.map (·.name)
  · obtain ⟨⟨_, supplier⟩, isParameter, rfl⟩ := List.mem_map.mp isName
    obtain ⟨bound, isBound, here⟩ := get?_bindings distinct areBound isParameter
    cases supplier with
    | search => exact absurd isParameter notSearch
    | caller =>
        obtain ⟨value, _, rfl⟩ := binding_caller_eq_ok.mp isBound
        simp [here]
  · rw [← contains_bindings_iff areBound, NameMap.contains, Option.not_isSome_iff_eq_none]
      at isName
    rw [isName]

end RowStep

namespace Statement

variable {name : String} {value : Value} {lenient : Prop} {s other : Statement}

/-- With a parameter fixed, a statement uses all others. -/
theorem Related.uses_fix
    [NumeralReading]
    (related : s.Related (RelExpr.Fixed name value lenient) other) :
    other.uses = s.uses.filter (· ≠ ⟨name, .caller⟩) := by
  rw [uses, uses, List.filter_flatMap]
  exact (List.flatMap_eq_of_forall₂
    (related.expressions.imp fun _ _ fixed => fixed.uses.symm)).symm

end Statement

namespace Planner

variable {model : Model} {query : Query} {draft : Draft} {name : String} {value : Value}

/-- The conjunction of filters is taken leniently if one of several is fixed to zero. -/
theorem conjunction?_fixed
    [NumeralReading]
    {lenient : Prop}
    {es others : List RelExpr}
    (fixed : List.Forall₂ (RelExpr.Fixed name value lenient) es others)
    (zero : value = .integer 0 → 1 < es.length → .parameter name ∈ es → lenient) :
    List.Forall₂ (RelExpr.Fixed name value lenient) (conjunction? es).toList
      (conjunction? others).toList := by
  have grouped : ∀ {es others : List RelExpr} {first other : RelExpr},
      first.Fixed name value lenient other →
      List.Forall₂ (RelExpr.Fixed name value lenient) es others →
      (value = .integer 0 → es ≠ [] → .parameter name ∈ first :: es → lenient) →
      (es.foldl .and first).Fixed name value lenient (others.foldl .and other) := by
    intro es others first other firstFixed restFixed zero
    induction restFixed generalizing first other with
    | nil => exact firstFixed
    | @cons next _ rest _ nextFixed _ inductionHypothesis =>
        refine inductionHypothesis (firstFixed.and nextFixed fun isZero bare => ?_) ?_
        · exact zero isZero (by simp) (by rcases bare with rfl | rfl <;> simp)
        · intro isZero _ isThere
          refine zero isZero (by simp) ?_
          simp only [List.mem_cons, reduceCtorEq, false_or] at isThere ⊢
          exact .inr (.inr isThere)
  cases fixed with
  | nil => exact .nil
  | @cons first _ rest _ firstFixed restFixed =>
      refine .cons (grouped firstFixed restFixed fun isZero notEmpty isThere => ?_) .nil
      refine zero isZero ?_ isThere
      simpa using List.length_pos_of_ne_nil notEmpty

/-- With a parameter fixed, a query that has a draft has one with the parameter fixed. -/
theorem Drafted.exists_fixed
    [NumeralReading]
    (drafted : Drafted model query draft)
    (fixable : query.Fixable name value) :
    ∃ otherDraft, Drafted model (query.fix name value) otherDraft ∧
      draft.statement.Related
        (RelExpr.Fixed name value (value = .integer 0 ∧ query.Conjoins name))
        otherDraft.statement ∧
      List.Forall₂ (fun term otherTerm => term.expr.PlaceAlike otherTerm.expr)
        draft.statement.ordering otherDraft.statement.ordering ∧
      otherDraft.columns = draft.columns ∧
      otherDraft.searches = draft.searches.map fun search =>
        search.withPhrase ((Replacement.fix name value).phrase search.phrase) := by
  have carries : Expr.Carries model query
      (fun e other => e.Fixable name value (value = .integer 0 ∧ query.Conjoins name) ∧
        other = e.replace (.fix name value))
      (RelExpr.Fixed name value (value = .integer 0 ∧ query.Conjoins name)) := {
    image := by
      rintro e _ image ⟨fixable', rfl⟩ imaged
      exact Expr.exists_image_fix fixable.notReal fixable' imaged
    named := by
      rintro e _ ⟨_, rfl⟩
      exact e.namedAlike_replace _
    column := fun tableAlias column =>
      .unused (by simp [RelExpr.uses]) fun _ _ => .column tableAlias column }
  obtain ⟨searches, recorded, isSearches⟩ := drafted.searches
  obtain ⟨otherSearches, otherRecorded, areOthers⟩ :=
    exists_recorded_replace recorded (.fix name value)
  have conjoined : ∀ {others : List RelExpr},
      List.Forall₂ (RelExpr.Fixed name value (value = .integer 0 ∧ query.Conjoins name))
        (draft.filters.map (·.lowered)) others →
      List.Forall₂ (RelExpr.Fixed name value (value = .integer 0 ∧ query.Conjoins name))
        (conjunction? (draft.filters.map (·.lowered))).toList (conjunction? others).toList := by
    intro others fixed
    refine conjunction?_fixed fixed fun isZero several isThere => ⟨isZero, .inr ⟨?_, ?_⟩⟩
    · rw [drafted.filters.length_eq]
      simpa using several
    · obtain ⟨predicate, isFilter, imaged⟩ :=
        List.exists_of_forall₂_right drafted.filterImages isThere
      exact Expr.eq_parameter_of_image? imaged ▸ isFilter
  obtain ⟨otherDraft, otherDrafted, statement, columns, otherSearched⟩ :=
    drafted.exists_related carries fixable.related_fix (otherCalls_replace drafted.noOthers _)
      otherRecorded conjoined
  refine ⟨otherDraft, otherDrafted, statement, ?_, columns, by
    rw [otherSearched, areOthers, isSearches]⟩
  -- The place of a sort term is decided by the key, in which nothing is taken leniently.
  have terms := drafted.ordering
  have otherTerms : List.Forall₂ (SortKeyDrafted model (query.fix name value))
      (query.ordering.map fun key => ⟨key.expr.replace (.fix name value), key.descending⟩)
      otherDraft.statement.ordering := otherDrafted.ordering
  rw [List.forall₂_map_left_iff] at otherTerms
  have keys := List.forall₂_imp_of_mem (fun key isKey _ _ keyDrafted =>
    And.intro isKey keyDrafted) terms
  refine (List.forall₂_comp.mp ⟨query.ordering, keys.flip, otherTerms⟩).imp ?_
  rintro term otherTerm ⟨key, ⟨isKey, keyDrafted⟩, otherKeyDrafted⟩
  obtain ⟨image, imaged, fixed⟩ :=
    Expr.exists_image_fix fixable.notReal (fixable.of_mem_ordering isKey) keyDrafted.expr
  have sameImage := (Expr.image?_congr fixable.related_fix.sources _).symm.trans
    otherKeyDrafted.expr
  obtain rfl := Option.some.inj (sameImage.symm.trans imaged)
  refine fixed.place not_false fun isParameter n isInteger => ?_
  have bareImage : key.expr.image? model query = some (.parameter name) :=
    isParameter ▸ keyDrafted.expr
  exact (fixable.sortKey key isKey n isInteger).1 (Expr.eq_parameter_of_image? bareImage)

section Run

variable (fixable : query.Fixable name value)

include fixable

/-- With a parameter fixed, a statement comes to the same as with the value bound. -/
theorem alike_of_fixed
    [NumeralReading]
    {s other : Statement}
    (fixed : s.Related (RelExpr.Fixed name value (value = .integer 0 ∧ query.Conjoins name)) other)
    (places : List.Forall₂ (fun term otherTerm => term.expr.PlaceAlike otherTerm.expr)
      s.ordering other.ordering)
    {bindings otherBindings : Store.Bindings}
    (isCell : ⟨name, .caller⟩ ∈ s.uses → bindings.cell name = Store.Cell.ofValue value)
    (sameCell : ∀ n, n ≠ name → otherBindings.cell n = bindings.cell n)
    (sameCells : ∀ valueSet, otherBindings.cells valueSet = bindings.cells valueSet) :
    s.Alike (value = .integer 0 ∧ query.Conjoins name) bindings otherBindings other where
  parts := fixed.imp_of_mem fun e isPart _ fixed => fixed.alike
    (fun used => isCell (List.mem_flatMap.mpr ⟨e, isPart, used⟩)) sameCell sameCells
  places := places
  named := by
    simp only [Statement.Named, fixed.uses_fix, List.mem_filter, decide_eq_true_eq]
    refine ⟨fun named use isUse => ?_, fun named use isUse => named use isUse.1⟩
    by_cases isParameter : use = ⟨name, .caller⟩
    · rw [isParameter]
      exact fixable.isName
    · exact named use ⟨isUse, isParameter⟩
  nulFree := (fixed.imp_of_mem fun _ _ _ fixed => fixed.nulFree).nulFree

variable {parameters : List StatementParameter} {otherDraft : Draft}
  {otherParameters : List StatementParameter}

/-- The row step of a draft with a parameter fixed runs as with the value supplied. -/
theorem Drafted.related_run_fix
    [NumeralReading]
    (drafted : Drafted model query draft)
    (listed : Sql.listUses [] draft.statement.uses = .ok parameters)
    (otherDrafted : Drafted model (query.fix name value) otherDraft)
    (otherListed : Sql.listUses [] otherDraft.statement.uses = .ok otherParameters)
    (statement : draft.statement.Related
      (RelExpr.Fixed name value (value = .integer 0 ∧ query.Conjoins name)) otherDraft.statement)
    (places : List.Forall₂ (fun term otherTerm => term.expr.PlaceAlike otherTerm.expr)
      draft.statement.ordering otherDraft.statement.ordering)
    (columns : otherDraft.columns = draft.columns)
    (store : Store)
    {context : RunContext}
    (isSupplied : context.parameters.get? name = some value) :
    Except.Related (value = .integer 0 ∧ query.Conjoins name)
      (fun records otherRecords => otherRecords = records)
      ((rows draft parameters).run store context)
      ((rows otherDraft otherParameters).run store context) := by
  obtain ⟨distinct, isListed⟩ := Sql.listUses_eq_ok Sql.distinct_nil listed
  obtain ⟨otherDistinct, isOtherListed⟩ := Sql.listUses_eq_ok Sql.distinct_nil otherListed
  have common : ∀ parameter, parameter ∈ otherParameters ↔
      parameter ∈ parameters ∧ parameter ≠ ⟨name, .caller⟩ := by
    intro parameter
    rw [isListed, isOtherListed, statement.uses_fix]
    simp
  have isBound : RowStep.binding context ⟨name, .caller⟩ = .ok (.single value) :=
    RowStep.binding_caller_eq_ok.mpr ⟨value, isSupplied, rfl⟩
  have notSearch : ⟨name, .search⟩ ∉ parameters := fun isSearch =>
    fixable.notGenerated ((drafted.search_mem_parameters listed).mp isSearch).1
  refine drafted.related_run listed otherDrafted otherListed columns ⟨?_, ?_⟩ ?_
  · intro others parameter isParameter
    by_cases isName : parameter = ⟨name, .caller⟩
    · exact ⟨_, isName ▸ isBound⟩
    · exact others parameter ((common parameter).mpr ⟨isParameter, isName⟩)
  · exact fun all parameter isParameter => all parameter ((common parameter).mp isParameter).1
  · intro bindings otherBindings areBound otherBound
    have same : ∀ n, n ≠ name → otherBindings.get? n = bindings.get? n := by
      intro n notName
      refine RowStep.get?_bindings_congr distinct otherDistinct areBound otherBound
        fun supplier => ?_
      simp only [rows, common, and_iff_left_iff_imp]
      rintro _ ⟨⟩
      exact notName rfl
    have sameCells : ∀ valueSet, otherBindings.cells valueSet = bindings.cells valueSet := by
      intro valueSet
      by_cases isName : valueSet = name
      · subst isName
        rw [RowStep.cells_bindings_eq_nil distinct areBound notSearch,
          RowStep.cells_bindings_eq_nil otherDistinct otherBound fun isSearch =>
            notSearch ((common _).mp isSearch).1]
      · rw [Store.Bindings.cells, Store.Bindings.cells, same valueSet isName]
    refine ⟨sameCells, alike_of_fixed fixable statement places ?_ ?_ sameCells⟩
    · intro isUse
      obtain ⟨bound, isBinding, here⟩ :=
        RowStep.get?_bindings distinct areBound ((isListed _).mpr (.inr isUse))
      obtain rfl := Except.ok.inj (isBinding.symm.trans isBound)
      simp [Store.Bindings.cell, here]
    · intro n notName
      rw [Store.Bindings.cell, Store.Bindings.cell, same n notName]

/-- A search with the parameter fixed in it asks for what is supplied. -/
theorem Drafted.search_alike_fix
    (drafted : Drafted model query draft)
    (searches : otherDraft.searches = draft.searches.map fun search =>
      search.withPhrase ((Replacement.fix name value).phrase search.phrase))
    {context : RunContext}
    (isSupplied : context.parameters.get? name = some value) :
    Option.Rel (SearchStep.Alike context) (steps draft parameters).search?
      (steps otherDraft otherParameters).search? := by
  rw [steps, steps, searches]
  rcases drafted.search_cases with ⟨_, noSearches, _⟩ |
    ⟨call, search, _, isCall, planned, _, isSearches, _⟩
  · rw [noSearches]
    exact .none
  · rw [isSearches]
    refine .some (SearchStep.alike_fix isSupplied fun isPhrase => fixable.text call.1 ?_)
    have isThere : call ∈ query.searchCalls := by
      simp [Query.searchCalls_eq_append, isCall]
    have samePhrase : call.2 = .parameter name := by
      rw [← phrase_of_planned? planned]
      exact isPhrase
    rwa [← samePhrase]

end Run

/-- With a parameter fixed, a plan does not look at what is supplied for it. -/
theorem not_mem_callerNames_fix
    {phrase : Expr.SearchPhrase}
    (isText : phrase = .parameter name → ∃ text, value = .text text) :
    name ∉ ((Replacement.fix name value).phrase phrase).parameter?.toList := by
  cases phrase with
  | literal text => simp [Replacement.fix, Expr.SearchPhrase.parameter?]
  | parameter other =>
      by_cases isName : other = name
      · subst isName
        obtain ⟨text, rfl⟩ := isText rfl
        simp [Replacement.fix, Expr.SearchPhrase.parameter?]
      · cases value <;>
          simp [Replacement.fix, Expr.SearchPhrase.parameter?, isName, Ne.symm isName]

end Planner

namespace Query

/-- The customers of a name that is supplied. -/
def ofName : Query where
  source := ⟨"c", "Customer"⟩
  filters := [.compare (.member "c" "Name") .eq (.parameter "name")]
  projection := [.member "c" "Id"]

/-- The name can be fixed to a text, because it is compared and not searched for. -/
theorem fixable_foundByText :
    foundByText.Fixable "name" (.text "Ada") where
  isName := by decide
  notGenerated := by decide
  notReal := nofun
  text := fun _ _ => ⟨"Ada", rfl⟩
  nulFree := by
    rintro _ ⟨⟩ _
    decide
  null := nofun
  sortKey := nofun

end Query

namespace Planner

end Planner

end FullTextQuery
