import FullTextQuery.Query.Basic

namespace FullTextQuery

/-!
# The nodes of expressions

Every part of an expression, the expression itself first.  A search call is a
part as a whole: the item and the text it is called with are no parts of their
own.
-/

namespace Expr

/-- Induction over expressions, where a call is reached from all of its arguments. -/
@[elab_as_elim, induction_eliminator]
theorem byParts
    {motive : Expr → Prop}
    (item : ∀ name, motive (.item name))
    (member : ∀ item property, motive (.member item property))
    (literal : ∀ value, motive (.literal value))
    (parameter : ∀ name, motive (.parameter name))
    (compare : ∀ left op right, motive left → motive right → motive (.compare left op right))
    (and : ∀ left right, motive left → motive right → motive (.and left right))
    (or : ∀ left right, motive left → motive right → motive (.or left right))
    (not : ∀ operand, motive operand → motive (.not operand))
    (call : ∀ function args, (∀ arg ∈ args, motive arg) → motive (.call function args))
    (e : Expr) :
    motive e :=
  @Expr.rec motive (fun args => ∀ arg ∈ args, motive arg)
    item member literal parameter compare and or not call
    (by simp)
    (fun _ _ first rest => by
      simpa using ⟨first, rest⟩)
    e

mutual

/-- The parts of an expression, the arguments of search calls left out. -/
def nodes : Expr → List Expr
  | .item name => [.item name]
  | .member source property => [.member source property]
  | .literal value => [.literal value]
  | .parameter name => [.parameter name]
  | .compare left op right => .compare left op right :: (nodes left ++ nodes right)
  | .and left right => .and left right :: (nodes left ++ nodes right)
  | .or left right => .or left right :: (nodes left ++ nodes right)
  | .not operand => .not operand :: nodes operand
  | .call function args =>
      .call function args ::
        (if (Expr.call function args).searchCall?.isSome then [] else nodesOfAll args)

/-- The parts of some expressions. -/
def nodesOfAll : List Expr → List Expr
  | [] => []
  | e :: es => nodes e ++ nodesOfAll es

end

theorem nodesOfAll_eq_flatMap
    (es : List Expr) :
    nodesOfAll es = es.flatMap nodes := by
  induction es with
  | nil => rfl
  | cons e es inductionHypothesis =>
      rw [List.flatMap_cons, ← inductionHypothesis]
      rfl

/-- An expression is a part of itself. -/
theorem mem_nodes_self
    (e : Expr) :
    e ∈ e.nodes := by
  cases e <;> exact List.mem_cons_self

section Nodes

variable {left right operand : Expr}

theorem nodes_compare
    (op : Comparison) :
    (Expr.compare left op right).nodes = .compare left op right :: (left.nodes ++ right.nodes) :=
  rfl

theorem nodes_and :
    (Expr.and left right).nodes = .and left right :: (left.nodes ++ right.nodes) :=
  rfl

theorem nodes_or :
    (Expr.or left right).nodes = .or left right :: (left.nodes ++ right.nodes) :=
  rfl

theorem nodes_not :
    (Expr.not operand).nodes = .not operand :: operand.nodes :=
  rfl

/-- The arguments of a search call are no parts. -/
theorem nodes_call
    (function : String)
    (args : List Expr) :
    (Expr.call function args).nodes =
      .call function args ::
        (if (Expr.call function args).searchCall?.isSome then [] else args.flatMap nodes) := by
  rw [← nodesOfAll_eq_flatMap]
  rfl

end Nodes

/-- The search calls in an expression, from left to right. -/
def searchCalls
    (e : Expr) :
    List (String × SearchPhrase) :=
  e.nodes.filterMap searchCall?

/-- A search call is a call of `search` on an item and an argument that is a phrase. -/
theorem searchCall?_eq_some
    {e : Expr}
    {item : String}
    {phrase : SearchPhrase} :
    e.searchCall? = some (item, phrase) ↔
      ∃ text, e = .call searchFunction [.item item, text] ∧ text.searchPhrase? = some phrase := by
  constructor
  · intro isSearch
    unfold searchCall? at isSearch
    split at isSearch
    · rename_i function name text
      split at isSearch
      · rename_i isFunction
        obtain ⟨_, isPhrase, same⟩ := Option.map_eq_some_iff.mp isSearch
        obtain ⟨rfl, rfl⟩ := Prod.mk.inj same
        exact ⟨text, by rw [isFunction], isPhrase⟩
      · simp at isSearch
    · simp at isSearch
  · rintro ⟨text, rfl, isPhrase⟩
    simp [searchCall?, isPhrase]

section SearchCalls

@[simp] theorem searchCalls_item
    (name : String) :
    (Expr.item name).searchCalls = [] :=
  rfl

@[simp] theorem searchCalls_member
    (item property : String) :
    (Expr.member item property).searchCalls = [] :=
  rfl

@[simp] theorem searchCalls_literal
    (value : Value) :
    (Expr.literal value).searchCalls = [] :=
  rfl

@[simp] theorem searchCalls_parameter
    (name : String) :
    (Expr.parameter name).searchCalls = [] :=
  rfl

@[simp] theorem searchCalls_compare
    (left : Expr)
    (op : Comparison)
    (right : Expr) :
    (Expr.compare left op right).searchCalls = left.searchCalls ++ right.searchCalls := by
  rw [searchCalls, nodes_compare, List.filterMap_cons_none rfl, List.filterMap_append]
  rfl

@[simp] theorem searchCalls_and
    (left right : Expr) :
    (Expr.and left right).searchCalls = left.searchCalls ++ right.searchCalls := by
  rw [searchCalls, nodes_and, List.filterMap_cons_none rfl, List.filterMap_append]
  rfl

@[simp] theorem searchCalls_or
    (left right : Expr) :
    (Expr.or left right).searchCalls = left.searchCalls ++ right.searchCalls := by
  rw [searchCalls, nodes_or, List.filterMap_cons_none rfl, List.filterMap_append]
  rfl

@[simp] theorem searchCalls_not
    (operand : Expr) :
    (Expr.not operand).searchCalls = operand.searchCalls := by
  rw [searchCalls, nodes_not, List.filterMap_cons_none rfl]
  rfl

/-- A search call has itself as its only search call. -/
theorem searchCalls_of_searchCall?
    {e : Expr}
    {searched : String × SearchPhrase}
    (isSearch : e.searchCall? = some searched) :
    e.searchCalls = [searched] := by
  obtain ⟨text, rfl, _⟩ := searchCall?_eq_some.mp isSearch
  simp [searchCalls, nodes_call, isSearch]

/-- Any other call has the search calls of its arguments. -/
theorem searchCalls_call
    {function : String}
    {args : List Expr}
    (notSearch : (Expr.call function args).searchCall? = none) :
    (Expr.call function args).searchCalls = args.flatMap searchCalls := by
  simp only [searchCalls, nodes_call, notSearch, Option.isSome_none, Bool.false_eq_true,
    ↓reduceIte, List.filterMap_cons_none, List.filterMap_flatMap]
  rfl

end SearchCalls

end Expr

namespace Query

/-- All expressions of a query: filters, join conditions, projection and sort keys. -/
def expressions
    (query : Query) :
    List Expr :=
  query.filters ++ query.joins.flatMap (fun join => [join.left, join.right])
    ++ query.projection ++ query.ordering.map (·.expr)

/-- The parts of all expressions of a query. -/
def nodes
    (query : Query) :
    List Expr :=
  query.expressions.flatMap Expr.nodes

/-- The expressions of a query, with each join as the equality that it stands for. -/
def clauses
    (query : Query) :
    List Expr :=
  query.filters ++ query.joins.map (fun join => .compare join.left .eq join.right)
    ++ query.projection ++ query.ordering.map (·.expr)

/-- A part of a clause is a part of the query, unless it is the equality of a join. -/
theorem mem_nodes_of_clause
    {query : Query}
    {e node : Expr}
    (isClause : e ∈ query.clauses)
    (isNode : node ∈ e.nodes)
    (notCompare : ∀ left op right, node ≠ .compare left op right) :
    node ∈ query.nodes := by
  simp only [clauses, List.mem_append, List.mem_map] at isClause
  simp only [nodes, expressions, List.mem_flatMap, List.mem_append, List.mem_map]
  rcases isClause with ((isFilter | ⟨join, isJoin, rfl⟩) | isProjected) | isKey
  · exact ⟨e, .inl (.inl (.inl isFilter)), isNode⟩
  · rcases List.mem_append.mp ((List.mem_cons.mp isNode).resolve_left (notCompare _ _ _)) with
      isLeft | isRight
    · exact ⟨join.left, .inl (.inl (.inr ⟨join, isJoin, by simp⟩)), isLeft⟩
    · exact ⟨join.right, .inl (.inl (.inr ⟨join, isJoin, by simp⟩)), isRight⟩
  · exact ⟨e, .inl (.inr isProjected), isNode⟩
  · exact ⟨e, .inr isKey, isNode⟩

/-- The search calls in the filters of a query. -/
def filterCalls
    (query : Query) :
    List (String × Expr.SearchPhrase) :=
  query.filters.flatMap Expr.searchCalls

/-- The search calls of a query outside its filters. -/
def otherCalls
    (query : Query) :
    List (String × Expr.SearchPhrase) :=
  query.joins.flatMap (fun join => join.left.searchCalls ++ join.right.searchCalls)
    ++ query.projection.flatMap Expr.searchCalls
    ++ query.ordering.flatMap (fun key => key.expr.searchCalls)

/-- The search calls of a query. -/
def searchCalls
    (query : Query) :
    List (String × Expr.SearchPhrase) :=
  query.nodes.filterMap Expr.searchCall?

/-- The search calls of a query are those in its filters and those elsewhere. -/
theorem searchCalls_eq_append
    (query : Query) :
    query.searchCalls = query.filterCalls ++ query.otherCalls := by
  simp [searchCalls, nodes, expressions, filterCalls, otherCalls, List.filterMap_flatMap,
    List.flatMap_map, List.flatMap_assoc]
  rfl

/-- The orders of the customers that a search finds, and the first orders of all others. -/
def ordersOfFound : Query where
  source := ⟨"o", "Order"⟩
  joins := [⟨⟨"c", "Customer"⟩, .member "o" "Buyer", .member "c" "Id"⟩]
  filters := [
    .not (.compare (.member "c" "Name") .eq (.parameter "name")),
    .or (.search "c" "acme") (.compare (.member "o" "Number") .lt (.literal (.integer 7)))]
  projection := [.member "o" "Number", .member "c" "Name"]

end Query

end FullTextQuery
