import FullTextQuery.Relational.Expr

namespace FullTextQuery.RelExpr

/-!
# The nodes of relational expressions

Every part of a relational expression, the expression itself first.
-/

/-- Induction over relational expressions, where a function is reached from all of its arguments. -/
@[elab_as_elim, induction_eliminator]
theorem byParts
    {motive : RelExpr → Prop}
    (member : ∀ item property, motive (.member item property))
    (column : ∀ tableAlias column, motive (.column tableAlias column))
    (literal : ∀ value, motive (.literal value))
    (parameter : ∀ name, motive (.parameter name))
    (compare : ∀ left op right, motive left → motive right → motive (.compare left op right))
    (and : ∀ left right, motive left → motive right → motive (.and left right))
    (or : ∀ left right, motive left → motive right → motive (.or left right))
    (not : ∀ operand, motive operand → motive (.not operand))
    (function : ∀ name args, (∀ arg ∈ args, motive arg) → motive (.function name args))
    (membership : ∀ operand valueSet search, motive operand →
      motive (.membership operand valueSet search))
    (e : RelExpr) :
    motive e :=
  @RelExpr.rec motive (fun args => ∀ arg ∈ args, motive arg)
    member column literal parameter compare and or not function membership
    (by simp)
    (fun _ _ first rest => by
      simpa using ⟨first, rest⟩)
    e

mutual

/-- The parts of an expression. -/
def nodes : RelExpr → List RelExpr
  | .member item property => [.member item property]
  | .column tableAlias name => [.column tableAlias name]
  | .literal value => [.literal value]
  | .parameter name => [.parameter name]
  | .compare left op right => .compare left op right :: (nodes left ++ nodes right)
  | .and left right => .and left right :: (nodes left ++ nodes right)
  | .or left right => .or left right :: (nodes left ++ nodes right)
  | .not operand => .not operand :: nodes operand
  | .function name args => .function name args :: nodesOfAll args
  | .membership operand valueSet search =>
      .membership operand valueSet search :: nodes operand

/-- The parts of some expressions. -/
def nodesOfAll : List RelExpr → List RelExpr
  | [] => []
  | e :: es => nodes e ++ nodesOfAll es

end

/-- The parts of some expressions are those of each of them. -/
theorem nodesOfAll_eq_flatMap
    (es : List RelExpr) :
    nodesOfAll es = es.flatMap nodes := by
  induction es with
  | nil => rfl
  | cons e es inductionHypothesis =>
      rw [List.flatMap_cons, ← inductionHypothesis]
      rfl

section Nodes

variable {left right operand : RelExpr}

theorem nodes_compare
    {op : Comparison} :
    (RelExpr.compare left op right).nodes = .compare left op right :: (left.nodes ++ right.nodes) :=
  rfl

theorem nodes_and :
    (RelExpr.and left right).nodes = .and left right :: (left.nodes ++ right.nodes) :=
  rfl

theorem nodes_or :
    (RelExpr.or left right).nodes = .or left right :: (left.nodes ++ right.nodes) :=
  rfl

theorem nodes_not :
    (RelExpr.not operand).nodes = .not operand :: operand.nodes :=
  rfl

theorem nodes_membership
    {valueSet : String}
    {search : SearchId} :
    (RelExpr.membership operand valueSet search).nodes =
      .membership operand valueSet search :: operand.nodes :=
  rfl

theorem nodes_function
    {name : String}
    {args : List RelExpr} :
    (RelExpr.function name args).nodes = .function name args :: args.flatMap nodes := by
  rw [← nodesOfAll_eq_flatMap]
  rfl

end Nodes

/-- The membership tests of some expressions are those of each of them. -/
theorem membershipsList_eq_flatMap
    (es : List RelExpr) :
    membershipsList es = es.flatMap memberships := by
  induction es with
  | nil => rfl
  | cons e es inductionHypothesis =>
      rw [List.flatMap_cons, ← inductionHypothesis]
      rfl

/-- Whether all parts of an expression satisfy a condition on themselves. -/
def Every
    (condition : RelExpr → Prop)
    (e : RelExpr) :
    Prop :=
  ∀ part ∈ e.nodes, condition part

instance
    {condition : RelExpr → Prop}
    [DecidablePred condition]
    (e : RelExpr) :
    Decidable (e.Every condition) :=
  inferInstanceAs (Decidable (∀ part ∈ e.nodes, condition part))

section Every

variable {condition : RelExpr → Prop} {left right operand : RelExpr}

@[simp] theorem every_column
    {tableAlias name : String} :
    (RelExpr.column tableAlias name).Every condition ↔ condition (.column tableAlias name) :=
  List.forall_mem_singleton

@[simp] theorem every_literal
    {value : Value} :
    (RelExpr.literal value).Every condition ↔ condition (.literal value) :=
  List.forall_mem_singleton

@[simp] theorem every_parameter
    {name : String} :
    (RelExpr.parameter name).Every condition ↔ condition (.parameter name) :=
  List.forall_mem_singleton

@[simp] theorem every_member
    {item property : String} :
    (RelExpr.member item property).Every condition ↔ condition (.member item property) :=
  List.forall_mem_singleton

@[simp] theorem every_compare
    {op : Comparison} :
    (RelExpr.compare left op right).Every condition ↔
      condition (.compare left op right) ∧ left.Every condition ∧ right.Every condition := by
  simp [Every, nodes_compare, or_imp, forall_and]

@[simp] theorem every_and :
    (RelExpr.and left right).Every condition ↔
      condition (.and left right) ∧ left.Every condition ∧ right.Every condition := by
  simp [Every, nodes_and, or_imp, forall_and]

@[simp] theorem every_or :
    (RelExpr.or left right).Every condition ↔
      condition (.or left right) ∧ left.Every condition ∧ right.Every condition := by
  simp [Every, nodes_or, or_imp, forall_and]

@[simp] theorem every_not :
    (RelExpr.not operand).Every condition ↔ condition (.not operand) ∧ operand.Every condition := by
  simp [Every, nodes_not]

@[simp] theorem every_membership
    {valueSet : String}
    {search : SearchId} :
    (RelExpr.membership operand valueSet search).Every condition ↔
      condition (.membership operand valueSet search) ∧ operand.Every condition := by
  simp [Every, nodes_membership]

@[simp] theorem every_function
    {name : String}
    {args : List RelExpr} :
    (RelExpr.function name args).Every condition ↔
      condition (.function name args) ∧ ∀ arg ∈ args, arg.Every condition := by
  simp only [Every, nodes_function, List.forall_mem_cons, List.mem_flatMap,
    forall_exists_index, and_imp]
  exact and_congr_right fun _ =>
    ⟨fun all arg member part inPart => all part arg member inPart,
      fun all part arg member inPart => all arg member part inPart⟩

end Every

end FullTextQuery.RelExpr
