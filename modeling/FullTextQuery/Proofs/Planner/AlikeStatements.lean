import FullTextQuery.Proofs.Planner.PlainStatement
import FullTextQuery.Proofs.Planner.RelatedDrafts
import FullTextQuery.Proofs.Sql.AlikeExpressions
import FullTextQuery.Proofs.Sql.StatementSelection

namespace FullTextQuery

/-!
# Statements that come to the same

Two statements over the same tables, each with what is bound to its parameters, whose
expressions come to the same.  Their texts select the same rows.
-/

open Sql (Selection)
open Store (AlikeSelections Bindings)

namespace Statement

/-- Whether all parameters of a statement have names that can stand in a text. -/
def Named
    (s : Statement) :
    Prop :=
  ∀ use ∈ s.uses, Sql.isParameterName use.name = true

/-- Related statements have the same expressions in the same order, as far as related. -/
theorem Related.expressions
    {relation : RelExpr → RelExpr → Prop}
    {s other : Statement}
    (related : s.Related relation other) :
    List.Forall₂ relation s.expressions other.expressions := by
  unfold Statement.expressions
  refine List.rel_append (List.rel_append (List.rel_append ?_ ?_) related.predicate) ?_
  · rw [List.forall₂_map_left_iff, List.forall₂_map_right_iff]
    exact related.projection.imp fun _ _ => And.left
  · rw [List.forall₂_map_left_iff, List.forall₂_map_right_iff]
    exact related.joins.imp fun _ _ => And.right
  · rw [List.forall₂_map_left_iff, List.forall₂_map_right_iff]
    exact related.ordering.imp fun _ _ => And.left

/-- Statements that are related in one way are related in a way that follows from it. -/
theorem Related.imp_of_mem
    {relation next : RelExpr → RelExpr → Prop}
    {s other : Statement}
    (related : s.Related relation other)
    (follows : ∀ e ∈ s.expressions, ∀ f, relation e f → next e f) :
    s.Related next other := by
  simp only [Statement.expressions, List.forall_mem_append, List.forall_mem_map] at follows
  obtain ⟨⟨⟨columns, joins⟩, predicate⟩, ordering⟩ := follows
  exact {
    projection := List.forall₂_imp_of_mem
      (fun column isColumn _ _ both => both.imp_left (columns column isColumn _))
      related.projection
    source := related.source
    joins := List.forall₂_imp_of_mem
      (fun joined isJoined _ _ both => both.imp_right (joins joined isJoined _)) related.joins
    predicate := List.forall₂_imp_of_mem
      (fun e isPredicate _ _ here => predicate e isPredicate _ here) related.predicate
    ordering := List.forall₂_imp_of_mem
      (fun term isTerm _ _ both => both.imp_left (ordering term isTerm _)) related.ordering
    limit := related.limit }

/-- A statement has no NUL in it if the expressions that differ have none. -/
theorem Related.nulFree
    {s other : Statement}
    (related : s.Related (fun e f => f.NulFree ↔ e.NulFree) other) :
    other.NulFree ↔ s.NulFree := by
  have both : ∀ {α : Type} {check : α → Prop} {items others : List α},
      List.Forall₂ (fun item other => check other ↔ check item) items others →
      ((∀ other ∈ others, check other) ↔ ∀ item ∈ items, check item) := by
    intro α check items others agree
    induction agree with
    | nil => simp
    | cons first _ inductionHypothesis =>
        rw [List.forall_mem_cons, List.forall_mem_cons, first, inductionHypothesis]
  unfold NulFree
  simp only [Option.mem_def, ← Option.mem_toList]
  rw [related.source, both related.predicate]
  refine and_congr (both (related.projection.imp ?_)) (and_congr .rfl
    (and_congr (both (related.joins.imp ?_)) (and_congr .rfl (both (related.ordering.imp ?_)))))
  · rintro column other ⟨same, sameName⟩
    rw [same, sameName]
  · rintro joined other ⟨sameTable, same⟩
    rw [same, sameTable]
  · rintro term other ⟨same, _⟩
    exact same

variable [NumeralReading]

/-- Two statements that come to the same, with sort terms that name the same places. -/
structure Alike
    (lenient : Prop)
    (bindings otherBindings : Bindings)
    (s other : Statement) :
    Prop where
  parts : s.Related (RelExpr.Alike lenient bindings otherBindings) other
  places : List.Forall₂ (fun term otherTerm => term.expr.PlaceAlike otherTerm.expr)
    s.ordering other.ordering
  named : other.Named ↔ s.Named
  nulFree : other.NulFree ↔ s.NulFree

variable {lenient : Prop} {bindings otherBindings : Bindings} {s other : Statement}

/-- Statements that come to the same are read as selections that stand for the same. -/
theorem Alike.grouped
    (alike : s.Alike lenient bindings otherBindings other)
    (sameCells : ∀ valueSet, otherBindings.cells valueSet = bindings.cells valueSet) :
    Option.Rel (AlikeSelections lenient bindings otherBindings) s.grouped? other.grouped? := by
  have parts := alike.parts
  have results : Option.Rel (List.Forall₂ fun result otherResult =>
        Store.AlikeTerms lenient bindings otherBindings result.term otherResult.term)
      (s.projection.mapM OutputColumn.grouped?) (other.projection.mapM OutputColumn.grouped?) :=
    .mapM (parts.projection.imp fun _ _ column =>
      (column.1.grouped sameCells).map fun _ _ terms => terms)
  have joins : Option.Rel (List.Forall₂ fun join otherJoin => otherJoin.table = join.table ∧
        Store.AlikeTerms lenient bindings otherBindings join.on otherJoin.on)
      (s.joins.mapM JoinedTable.grouped?) (other.joins.mapM JoinedTable.grouped?) :=
    .mapM (parts.joins.imp fun _ _ joined =>
      (joined.2.grouped sameCells).map fun _ _ terms => ⟨joined.1, terms⟩)
  have filter : Option.Rel (fun filter? otherFilter? =>
        List.Forall₂ (Store.AlikeTerms lenient bindings otherBindings) filter?.toList
          otherFilter?.toList)
      (s.predicate?.mapM RelExpr.grouped?) (other.predicate?.mapM RelExpr.grouped?) := by
    have predicate := parts.predicate
    cases isPredicate : s.predicate? with
    | none =>
        cases isOther : other.predicate? with
        | none => exact .some .nil
        | some e => simp [isPredicate, isOther] at predicate
    | some e =>
        cases isOther : other.predicate? with
        | none => simp [isPredicate, isOther] at predicate
        | some otherE =>
            rw [isPredicate, isOther] at predicate
            cases predicate with
            | cons same _ =>
                exact (same.grouped sameCells).map fun _ _ terms => .cons terms .nil
  have ordering : Option.Rel (List.Forall₂ fun sort otherSort =>
        Store.AlikeTerms lenient bindings otherBindings sort.term otherSort.term ∧
          Store.resultPlace? otherSort.term = Store.resultPlace? sort.term ∧
          otherSort.descending = sort.descending)
      (s.ordering.mapM OrderTerm.grouped?) (other.ordering.mapM OrderTerm.grouped?) := by
    refine .mapM (List.Forall₂.mp ?_ parts.ordering alike.places)
    rintro term otherTerm ⟨same, sameDirection⟩ samePlace
    exact ((same.grouped sameCells).imp_of_mem fun term isTerm otherTerm isOther terms =>
      And.intro terms (samePlace term isTerm otherTerm isOther)).map fun _ _ both =>
        ⟨both.1, both.2, sameDirection⟩
  have sameEmpty : other.projection.isEmpty = s.projection.isEmpty := by
    rw [Bool.eq_iff_iff, List.isEmpty_iff_length_eq_zero, List.isEmpty_iff_length_eq_zero,
      parts.projection.length_eq]
  unfold grouped?
  rw [sameEmpty]
  split
  · exact .none
  simp only [Option.bind_eq_bind]
  exact results.bind fun _ _ results => joins.bind fun _ _ joins => filter.bind fun _ _ filter =>
    ordering.bind fun _ _ ordering =>
      .some ⟨results, parts.source, joins, filter, ordering, by rw [parts.limit]⟩

/-- Whether what is bound is what a statement uses, which is plain if it is named. -/
structure Binds
    (s : Statement)
    (bindings : Bindings) :
    Prop where
  names : ∀ name, bindings.contains name = true ↔ name ∈ s.uses.map (·.name)
  plain : s.Named → s.Plain

/-- Statements that come to the same select the same rows. -/
theorem Alike.select
    (alike : s.Alike lenient bindings otherBindings other)
    (sameCells : ∀ valueSet, otherBindings.cells valueSet = bindings.cells valueSet)
    (binds : s.Binds bindings)
    (otherBinds : other.Binds otherBindings)
    (store : Store) :
    Except.Related lenient (fun results otherResults => otherResults = results)
      (store.select s.text bindings) (store.select other.text otherBindings) := by
  by_cases named : s.Named
  · rw [select_text (binds.plain named) store fun name isBound =>
        (binds.names name).mp (NameMap.contains_iff_mem_names.mpr isBound),
      select_text (otherBinds.plain (alike.named.mpr named)) store fun name isBound =>
        (otherBinds.names name).mp (NameMap.contains_iff_mem_names.mpr isBound)]
    simp only [alike.nulFree]
    have grouped : Option.Rel (AlikeSelections lenient bindings otherBindings)
        (if s.NulFree then s.grouped? else none) (if s.NulFree then other.grouped? else none) := by
      split
      · exact alike.grouped sameCells
      · exact .none
    generalize (if s.NulFree then s.grouped? else none) = selection?,
      (if s.NulFree then other.grouped? else none) = otherSelection? at grouped
    cases grouped with
    | none => exact .error
    | some selections => exact selections.rows store
  · -- Where a parameter has no name that can stand in a text, neither text can be searched with.
    have noSearch : ∀ {statement : Statement} {bound : Bindings}, statement.Binds bound →
        ¬statement.Named → ∃ cause, store.select statement.text bound = .error cause := by
      intro statement bound binds notNamed
      cases selects : store.select statement.text bound with
      | error cause => exact ⟨cause, rfl⟩
      | ok results =>
          obtain ⟨search, searched, _⟩ := Except.bind_eq_ok.mp selects
          refine absurd (fun use isUse => ?_) notNamed
          exact Store.isParameterName_of_search searched use.name
            ((binds.names use.name).mpr (List.mem_map_of_mem isUse))
    obtain ⟨cause, selects⟩ := noSearch binds named
    obtain ⟨otherCause, otherSelects⟩ := noSearch otherBinds (alike.named.not.mpr named)
    rw [selects, otherSelects]
    exact .error

end Statement

end FullTextQuery
