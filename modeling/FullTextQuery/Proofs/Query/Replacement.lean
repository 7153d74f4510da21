import FullTextQuery.Proofs.Query.Related

namespace FullTextQuery

/-!
# Replacing parameters and search texts

A query in which some parameters are replaced by literals, and the texts of
search calls by other texts.  What is a search call stays one and nothing else
becomes one, so the query keeps its shape and its search calls keep their items.
-/

namespace Expr.SearchPhrase

/-- The argument that stands for a phrase. -/
def toExpr : SearchPhrase → Expr
  | .literal text => .literal (.text text)
  | .parameter name => .parameter name

@[simp] theorem searchPhrase?_toExpr
    (phrase : SearchPhrase) :
    phrase.toExpr.searchPhrase? = some phrase := by
  cases phrase <;> rfl

end Expr.SearchPhrase

/-- Which parameters are replaced by which literals, and the texts of search calls by which. -/
structure Replacement where
  value? : String → Option Value
  phrase : Expr.SearchPhrase → Expr.SearchPhrase

namespace Replacement

/-- What stands in the place of a parameter. -/
def parameter
    (replacement : Replacement)
    (name : String) :
    Expr :=
  (replacement.value? name).elim (.parameter name) .literal

end Replacement

namespace Expr

mutual

/-- The expression after a replacement.  The text of a search call is replaced as a text. -/
def replace
    (replacement : Replacement) :
    Expr → Expr
  | .item name => .item name
  | .member source property => .member source property
  | .literal value => .literal value
  | .parameter name => replacement.parameter name
  | .compare left op right => .compare (replace replacement left) op (replace replacement right)
  | .and left right => .and (replace replacement left) (replace replacement right)
  | .or left right => .or (replace replacement left) (replace replacement right)
  | .not operand => .not (replace replacement operand)
  | .call function args =>
      match (Expr.call function args).searchCall? with
      | some (source, phrase) =>
          .call searchFunction [.item source, (replacement.phrase phrase).toExpr]
      | none => .call function (replaceAll replacement args)

/-- The arguments after a replacement. -/
def replaceAll
    (replacement : Replacement) :
    List Expr → List Expr
  | [] => []
  | arg :: args => replace replacement arg :: replaceAll replacement args

end

variable (replacement : Replacement)

theorem replaceAll_eq_map
    (args : List Expr) :
    replaceAll replacement args = args.map (replace replacement) := by
  induction args with
  | nil => rfl
  | cons arg args inductionHypothesis => rw [replaceAll, inductionHypothesis, List.map_cons]

/-- A search call keeps its item. -/
theorem replace_of_searchCall?
    {e : Expr}
    {source : String}
    {phrase : SearchPhrase}
    (isSearch : e.searchCall? = some (source, phrase)) :
    e.replace replacement =
      .call searchFunction [.item source, (replacement.phrase phrase).toExpr] := by
  obtain ⟨text, rfl, _⟩ := searchCall?_eq_some.mp isSearch
  simp only [replace, isSearch]

/-- Any other call keeps its function. -/
theorem replace_call
    {function : String}
    {args : List Expr}
    (notSearch : (Expr.call function args).searchCall? = none) :
    (Expr.call function args).replace replacement =
      .call function (args.map (replace replacement)) := by
  rw [replace, notSearch, replaceAll_eq_map]

/-- A search call stays one. -/
theorem searchCall?_replace_of_searchCall?
    {e : Expr}
    {source : String}
    {phrase : SearchPhrase}
    (isSearch : e.searchCall? = some (source, phrase)) :
    (e.replace replacement).searchCall? = some (source, replacement.phrase phrase) := by
  rw [replace_of_searchCall? replacement isSearch]
  simp [searchCall?]

/-- Only an item becomes an item when parameters are replaced. -/
theorem item_of_replace
    {e : Expr}
    {name : String}
    (isItem : e.replace replacement = .item name) :
    e = .item name := by
  cases e with
  | item other => exact isItem
  | parameter other =>
      rw [replace, Replacement.parameter] at isItem
      cases replaced : replacement.value? other <;> simp [replaced] at isItem
  | call function args =>
      cases isSearch : (Expr.call function args).searchCall? with
      | some searched => cases (replace_of_searchCall? replacement isSearch).symm.trans isItem
      | none => cases (replace_call replacement isSearch).symm.trans isItem
  | _ => cases isItem

/-- What stands for a phrase after a replacement did so before. -/
theorem isSome_searchPhrase?_of_replace
    {e : Expr}
    (isPhrase : (e.replace replacement).searchPhrase?.isSome) :
    e.searchPhrase?.isSome := by
  cases e with
  | parameter name => rfl
  | call function args =>
      cases isSearch : (Expr.call function args).searchCall? with
      | some searched =>
          rw [replace_of_searchCall? replacement isSearch] at isPhrase
          cases isPhrase
      | none =>
          rw [replace_call replacement isSearch] at isPhrase
          cases isPhrase
  | _ => exact isPhrase

/-- What is no search call does not become one. -/
theorem searchCall?_replace_eq_none
    {e : Expr}
    (notSearch : e.searchCall? = none) :
    (e.replace replacement).searchCall? = none := by
  cases e with
  | parameter name =>
      rw [replace, Replacement.parameter]
      cases replacement.value? name <;> rfl
  | call function args =>
      rw [replace_call replacement notSearch, Option.eq_none_iff_forall_ne_some]
      rintro ⟨source, found⟩ isSearch
      obtain ⟨text, same, isPhrase⟩ := searchCall?_eq_some.mp isSearch
      obtain ⟨rfl, areArgs⟩ := Expr.call.inj same
      obtain ⟨first, rest, rfl, isItem, restArgs⟩ := List.map_eq_cons_iff.mp areArgs
      obtain ⟨second, others, rfl, rfl, noOthers⟩ := List.map_eq_cons_iff.mp restArgs
      obtain rfl := List.map_eq_nil_iff.mp noOthers
      obtain rfl := item_of_replace replacement isItem
      obtain ⟨phrase, wasPhrase⟩ := Option.isSome_iff_exists.mp
        (isSome_searchPhrase?_of_replace replacement (Option.isSome_of_eq_some isPhrase))
      rw [searchCall?_eq_some.mpr ⟨second, rfl, wasPhrase⟩] at notSearch
      cases notSearch
  | _ => rfl

/-- The search calls are those of before, with their texts replaced. -/
theorem searchCalls_replace
    (e : Expr) :
    (e.replace replacement).searchCalls =
      e.searchCalls.map fun call => (call.1, replacement.phrase call.2) := by
  induction e with
  | item name => rfl
  | member source property => rfl
  | literal value => rfl
  | parameter name =>
      rw [replace, Replacement.parameter]
      cases replacement.value? name <;> rfl
  | compare left op right leftCalls rightCalls =>
      rw [replace, searchCalls_compare, leftCalls, rightCalls, searchCalls_compare,
        List.map_append]
  | and left right leftCalls rightCalls =>
      rw [replace, searchCalls_and, leftCalls, rightCalls, searchCalls_and, List.map_append]
  | or left right leftCalls rightCalls =>
      rw [replace, searchCalls_or, leftCalls, rightCalls, searchCalls_or, List.map_append]
  | not operand operandCalls =>
      rw [replace, searchCalls_not, operandCalls, searchCalls_not]
  | call function args argCalls =>
      cases isSearch : (Expr.call function args).searchCall? with
      | some searched =>
          obtain ⟨source, phrase⟩ := searched
          rw [searchCalls_of_searchCall? isSearch,
            searchCalls_of_searchCall? (searchCall?_replace_of_searchCall? replacement isSearch)]
          rfl
      | none =>
          have stillNot := searchCall?_replace_eq_none replacement isSearch
          rw [replace_call replacement isSearch] at stillNot ⊢
          rw [searchCalls_call stillNot, searchCalls_call isSearch, List.map_flatMap,
            List.flatMap_map]
          exact List.flatMap_congr argCalls

/-- An expression and what replaces it are the same member, or both are none. -/
theorem namedAlike_replace
    (e : Expr) :
    e.NamedAlike (e.replace replacement) := by
  cases e with
  | member source property => exact .inl rfl
  | parameter name =>
      refine .inr ⟨by simp, fun source property isMember => ?_⟩
      rw [replace, Replacement.parameter] at isMember
      cases replaced : replacement.value? name <;> simp [replaced] at isMember
  | call function args =>
      refine .inr ⟨by simp, fun source property isMember => ?_⟩
      cases isSearch : (Expr.call function args).searchCall? with
      | some searched => cases (replace_of_searchCall? replacement isSearch).symm.trans isMember
      | none => cases (replace_call replacement isSearch).symm.trans isMember
  | _ => exact .inr ⟨by simp, by simp [replace]⟩

end Expr

namespace Query

/-- The query after a replacement in all of its expressions. -/
def replace
    (query : Query)
    (replacement : Replacement) :
    Query where
  source := query.source
  joins := query.joins.map fun join =>
    ⟨join.source, join.left.replace replacement, join.right.replace replacement⟩
  filters := query.filters.map (Expr.replace replacement)
  projection := query.projection.map (Expr.replace replacement)
  ordering := query.ordering.map fun key => ⟨key.expr.replace replacement, key.descending⟩
  limit? := query.limit?

variable (query : Query) (replacement : Replacement)

/-- A replacement keeps the shape of a query. -/
theorem related_replace :
    query.Related (fun e other => other = e.replace replacement) (query.replace replacement) where
  source := rfl
  joins := by
    rw [replace, List.forall₂_map_right_iff, List.forall₂_same]
    exact fun join _ => ⟨rfl, rfl⟩
  filters := by
    rw [replace, List.forall₂_map_right_iff, List.forall₂_same]
    exact fun _ _ => rfl
  projection := by
    rw [replace, List.forall₂_map_right_iff, List.forall₂_same]
    exact fun _ _ => rfl
  ordering := by
    rw [replace, List.forall₂_map_right_iff, List.forall₂_same]
    exact fun key _ => ⟨rfl, rfl⟩
  limit := rfl

/-- The search calls in the filters are those of before, with their texts replaced. -/
theorem filterCalls_replace :
    (query.replace replacement).filterCalls =
      query.filterCalls.map fun call => (call.1, replacement.phrase call.2) := by
  rw [filterCalls, filterCalls, replace, List.flatMap_map, List.map_flatMap]
  exact List.flatMap_congr fun e _ => e.searchCalls_replace replacement

end Query

end FullTextQuery
