import FullTextQuery.Proofs.Query.Nodes
import FullTextQuery.Proofs.Query.Scanners

namespace FullTextQuery

/-!
# Canonical texts

A canonical text has one blank between its units, the clauses in the order of the
grammar and parentheses around every operand that is itself made of operands.  A
text literal stands in quotes of either kind, each literal in its own, so that a
query has several canonical texts; a real number has none.
-/

namespace Expr

mutual

/-- The expression and everything that it is made of. -/
def subexpressions : Expr → List Expr
  | .item name => [.item name]
  | .member source property => [.member source property]
  | .literal value => [.literal value]
  | .parameter name => [.parameter name]
  | .compare left op right =>
      .compare left op right :: (subexpressions left ++ subexpressions right)
  | .and left right => .and left right :: (subexpressions left ++ subexpressions right)
  | .or left right => .or left right :: (subexpressions left ++ subexpressions right)
  | .not operand => .not operand :: subexpressions operand
  | .call function args => .call function args :: subexpressionsOfAll args

/-- The subexpressions of some expressions. -/
def subexpressionsOfAll : List Expr → List Expr
  | [] => []
  | e :: es => subexpressions e ++ subexpressionsOfAll es

end

section Subexpressions

variable {e left right operand : Expr} {es : List Expr}

@[simp] theorem subexpressions_compare
    (op : Comparison) :
    (Expr.compare left op right).subexpressions =
      .compare left op right :: (left.subexpressions ++ right.subexpressions) :=
  rfl

@[simp] theorem subexpressions_and :
    (Expr.and left right).subexpressions =
      .and left right :: (left.subexpressions ++ right.subexpressions) :=
  rfl

@[simp] theorem subexpressions_or :
    (Expr.or left right).subexpressions =
      .or left right :: (left.subexpressions ++ right.subexpressions) :=
  rfl

@[simp] theorem subexpressions_not :
    (Expr.not operand).subexpressions = .not operand :: operand.subexpressions :=
  rfl

@[simp] theorem subexpressions_call
    (function : String) :
    (Expr.call function es).subexpressions = .call function es :: subexpressionsOfAll es :=
  rfl

theorem subexpressionsOfAll_cons :
    subexpressionsOfAll (e :: es) = e.subexpressions ++ subexpressionsOfAll es :=
  rfl

@[simp] theorem mem_subexpressionsOfAll
    {part : Expr} :
    part ∈ subexpressionsOfAll es ↔ ∃ e ∈ es, part ∈ e.subexpressions := by
  induction es with
  | nil => exact iff_of_false List.not_mem_nil (by simp)
  | cons first es inductionHypothesis =>
      simp [subexpressionsOfAll_cons, inductionHypothesis]

end Subexpressions

/-- Whether an expression and everything that it is made of is of a kind. -/
def Everywhere
    (good : Expr → Prop)
    (e : Expr) :
    Prop :=
  ∀ part ∈ e.subexpressions, good part

section Everywhere

variable {good : Expr → Prop} {left right operand : Expr} {op : Comparison}

@[simp] theorem everywhere_item
    {name : String} :
    (Expr.item name).Everywhere good ↔ good (.item name) :=
  List.forall_mem_singleton

@[simp] theorem everywhere_member
    {item property : String} :
    (Expr.member item property).Everywhere good ↔ good (.member item property) :=
  List.forall_mem_singleton

@[simp] theorem everywhere_literal
    {value : Value} :
    (Expr.literal value).Everywhere good ↔ good (.literal value) :=
  List.forall_mem_singleton

@[simp] theorem everywhere_parameter
    {name : String} :
    (Expr.parameter name).Everywhere good ↔ good (.parameter name) :=
  List.forall_mem_singleton

@[simp] theorem everywhere_compare :
    (Expr.compare left op right).Everywhere good ↔
      good (.compare left op right) ∧ left.Everywhere good ∧ right.Everywhere good := by
  simp [Everywhere, or_imp, forall_and]

@[simp] theorem everywhere_and :
    (Expr.and left right).Everywhere good ↔
      good (.and left right) ∧ left.Everywhere good ∧ right.Everywhere good := by
  simp [Everywhere, or_imp, forall_and]

@[simp] theorem everywhere_or :
    (Expr.or left right).Everywhere good ↔
      good (.or left right) ∧ left.Everywhere good ∧ right.Everywhere good := by
  simp [Everywhere, or_imp, forall_and]

@[simp] theorem everywhere_not :
    (Expr.not operand).Everywhere good ↔ good (.not operand) ∧ operand.Everywhere good := by
  simp [Everywhere]

@[simp] theorem everywhere_call
    {function : String}
    {args : List Expr} :
    (Expr.call function args).Everywhere good ↔
      good (.call function args) ∧ ∀ arg ∈ args, arg.Everywhere good := by
  simp only [Everywhere, subexpressions_call, List.mem_cons, mem_subexpressionsOfAll, or_imp,
    forall_and, forall_eq, and_congr_right_iff]
  intro _
  exact ⟨fun all arg member part isPart => all part ⟨arg, member, isPart⟩,
    fun all part isPart => isPart.elim fun arg found => all arg found.1 part found.2⟩

end Everywhere

/-- Whether the names that an expression has outside its parts can be written. -/
def HasNames : Expr → Prop
  | .item name => Query.IsName name
  | .member source property => Query.IsName source ∧ Query.IsName property
  | .parameter name => Query.IsName name
  | .call function _ =>
      Query.IsName function ∧ function.toList.map Char.toLower = function.toList
  | .literal _ | .compare .. | .and .. | .or .. | .not _ => True

/-- Whether all names in an expression are identifiers, functions in lower case. -/
def Named
    (e : Expr) :
    Prop :=
  e.Everywhere HasNames

/-- Whether all numbers in an expression are integers. -/
def NoReals
    (e : Expr) :
    Prop :=
  e.Everywhere fun part => ∀ x : Binary64, part ≠ .literal (.real x)

/-- Whether an expression is an operand without parentheses around it. -/
def isAtomic : Expr → Bool
  | .item _ | .member .. | .literal _ | .parameter _ | .call .. => true
  | .compare .. | .and .. | .or .. | .not _ => false

/-- The text of an operand, given that of the expression. -/
def operandText
    (e : Expr)
    (text : List Char) :
    List Char :=
  if e.isAtomic then text else '(' :: (text ++ [')'])

/-- Texts with commas between them. -/
def commaText
    (texts : List (List Char)) :
    List Char :=
  ", ".toList.intercalate texts

/-- Whether a text is a canonical text of an expression. -/
inductive Spells : Expr → List Char → Prop
  | item {name : String} : Spells (.item name) name.toList
  | member {item property : String} :
      Spells (.member item property) (item.toList ++ '.' :: property.toList)
  | null : Spells (.literal .null) "null".toList
  | integer {n : Int64} : Spells (.literal (.integer n)) (Decimal.ofInt n.toInt).toList
  | text {quote : Char} {s : String} :
      quote = '"' ∨ quote = '\'' →
        Spells (.literal (.text s)) (quote :: (doubled quote s.toList ++ [quote]))
  | parameter {name : String} : Spells (.parameter name) ('@' :: name.toList)
  | compare {left right : Expr} {leftText rightText : List Char} {op : Comparison} :
      Spells left leftText → Spells right rightText →
        Spells (.compare left op right) (left.operandText leftText ++
          ' ' :: (op.symbol.toList ++ ' ' :: right.operandText rightText))
  | and {left right : Expr} {leftText rightText : List Char} :
      Spells left leftText → Spells right rightText →
        Spells (.and left right)
          (left.operandText leftText ++ (" and ".toList ++ right.operandText rightText))
  | or {left right : Expr} {leftText rightText : List Char} :
      Spells left leftText → Spells right rightText →
        Spells (.or left right)
          (left.operandText leftText ++ (" or ".toList ++ right.operandText rightText))
  | not {operand : Expr} {text : List Char} :
      Spells operand text → Spells (.not operand) ("not ".toList ++ operand.operandText text)
  | call {function : String} {args : List Expr} {texts : List (List Char)} :
      args.length = texts.length →
        (∀ arg text, (arg, text) ∈ args.zip texts → Spells arg text) →
          Spells (.call function args) (function.toList ++ '(' :: (commaText texts ++ [')']))

/-- A call is spelled by texts of its arguments. -/
theorem Spells.ofArgs
    {function : String}
    {args : List Expr}
    {texts : List (List Char)}
    (each : List.Forall₂ Spells args texts) :
    Spells (.call function args) (function.toList ++ '(' :: (commaText texts ++ [')'])) := by
  obtain ⟨sameLength, zipped⟩ := List.forall₂_iff_zip.mp each
  exact .call sameLength fun arg text member => zipped member

/-- Texts of some expressions, one by one. -/
theorem exists_forall₂
    {α β : Type}
    {relation : α → β → Prop}
    {items : List α}
    (each : ∀ item ∈ items, ∃ other, relation item other) :
    ∃ others, List.Forall₂ relation items others := by
  induction items with
  | nil => exact ⟨[], .nil⟩
  | cons item items inductionHypothesis =>
      obtain ⟨first, eachOther⟩ := List.forall_mem_cons.mp each
      obtain ⟨other, related⟩ := first
      obtain ⟨others, allRelated⟩ := inductionHypothesis eachOther
      exact ⟨other :: others, .cons related allRelated⟩

/-- Every expression without reals has a canonical text. -/
theorem exists_spells
    {e : Expr}
    (noReals : e.NoReals) :
    ∃ text, e.Spells text := by
  induction e with
  | item name => exact ⟨_, .item⟩
  | member item property => exact ⟨_, .member⟩
  | literal value =>
      cases value with
      | null => exact ⟨_, .null⟩
      | integer n => exact ⟨_, .integer⟩
      | real x => exact absurd rfl (everywhere_literal.mp noReals x)
      | text s => exact ⟨_, .text (.inl rfl)⟩
  | parameter name => exact ⟨_, .parameter⟩
  | compare left op right leftSpelled rightSpelled =>
      obtain ⟨-, leftNoReals, rightNoReals⟩ := everywhere_compare.mp noReals
      obtain ⟨leftText, isLeft⟩ := leftSpelled leftNoReals
      obtain ⟨rightText, isRight⟩ := rightSpelled rightNoReals
      exact ⟨_, .compare isLeft isRight⟩
  | and left right leftSpelled rightSpelled =>
      obtain ⟨-, leftNoReals, rightNoReals⟩ := everywhere_and.mp noReals
      obtain ⟨leftText, isLeft⟩ := leftSpelled leftNoReals
      obtain ⟨rightText, isRight⟩ := rightSpelled rightNoReals
      exact ⟨_, .and isLeft isRight⟩
  | or left right leftSpelled rightSpelled =>
      obtain ⟨-, leftNoReals, rightNoReals⟩ := everywhere_or.mp noReals
      obtain ⟨leftText, isLeft⟩ := leftSpelled leftNoReals
      obtain ⟨rightText, isRight⟩ := rightSpelled rightNoReals
      exact ⟨_, .or isLeft isRight⟩
  | not operand spelled =>
      obtain ⟨text, isText⟩ := spelled (everywhere_not.mp noReals).2
      exact ⟨_, .not isText⟩
  | call function args argsSpelled =>
      have argsNoReals := (everywhere_call.mp noReals).2
      obtain ⟨texts, spelled⟩ := exists_forall₂ fun arg member =>
        argsSpelled arg member (argsNoReals arg member)
      exact ⟨_, .ofArgs spelled⟩

end Expr

/-- A source as it follows `from` and `join`. -/
def Source.text
    (source : Source) :
    List Char :=
  source.item.toList ++ (" in ".toList ++ source.entity.toList)

/-- Whether a text is a canonical text of a join, with a blank in front. -/
inductive Join.Spells (join : Join) : List Char → Prop
  | intro {left right : List Char} :
      join.left.Spells left → join.right.Spells right →
        join.Spells (" join ".toList ++ (join.source.text ++ (" on ".toList ++
          (join.left.operandText left ++ (" = ".toList ++ join.right.operandText right)))))

/-- Whether a text is a canonical text of a filter, with a blank in front. -/
inductive Query.SpellsFilter (predicate : Expr) : List Char → Prop
  | intro {text : List Char} :
      predicate.Spells text → SpellsFilter predicate (" where ".toList ++ text)

/-- Whether a text is a canonical text of a sort key. -/
inductive SortKey.Spells (key : SortKey) : List Char → Prop
  | intro {text : List Char} :
      key.expr.Spells text →
        key.Spells (text ++ if key.descending then " desc".toList else " asc".toList)

namespace Query

/-- A clause of some parts, with a blank in front; without parts there is no clause. -/
def listClauseText
    (opening : String)
    (texts : List (List Char)) :
    List Char :=
  if texts.isEmpty then [] else opening.toList ++ Expr.commaText texts

/-- The limit as a clause with a blank in front. -/
def limitText : Option UInt64 → List Char
  | none => []
  | some count => " take ".toList ++ Decimal.digits count.toNat

/-- Whether a text is a canonical text of a query. -/
inductive Spells (query : Query) : List Char → Prop
  | intro {joins filters projection ordering : List (List Char)} :
      List.Forall₂ Join.Spells query.joins joins →
        List.Forall₂ SpellsFilter query.filters filters →
          List.Forall₂ Expr.Spells query.projection projection →
            List.Forall₂ SortKey.Spells query.ordering ordering →
              query.Spells ("from ".toList ++ (query.source.text ++ (joins.flatten ++
                (filters.flatten ++ (listClauseText " select " projection ++
                  (listClauseText " order by " ordering ++ limitText query.limit?))))))

/-- Whether all names in a query are identifiers, functions in lower case. -/
structure Named
    (query : Query) :
    Prop where
  sources : ∀ source ∈ query.sources, IsName source.item ∧ IsName source.entity
  expressions : ∀ e ∈ query.expressions, e.Named

/-- Whether all numbers in the expressions of a query are integers. -/
def NoReals
    (query : Query) :
    Prop :=
  ∀ e ∈ query.expressions, e.NoReals

/-- Every query without reals has a canonical text. -/
theorem exists_spells
    {query : Query}
    (noReals : query.NoReals) :
    ∃ text, query.Spells text := by
  simp only [NoReals, expressions, List.mem_append, or_imp, forall_and, List.mem_flatMap,
    List.mem_map] at noReals
  obtain ⟨⟨⟨inFilters, inJoins⟩, inProjection⟩, inOrdering⟩ := noReals
  obtain ⟨joins, isJoins⟩ : ∃ joins, List.Forall₂ Join.Spells query.joins joins := by
    refine Expr.exists_forall₂ fun join member => ?_
    obtain ⟨left, isLeft⟩ := Expr.exists_spells (inJoins join.left ⟨join, member, by simp⟩)
    obtain ⟨right, isRight⟩ := Expr.exists_spells (inJoins join.right ⟨join, member, by simp⟩)
    exact ⟨_, .intro isLeft isRight⟩
  obtain ⟨filters, isFilters⟩ : ∃ filters, List.Forall₂ SpellsFilter query.filters filters := by
    refine Expr.exists_forall₂ fun predicate member => ?_
    obtain ⟨text, isText⟩ := Expr.exists_spells (inFilters predicate member)
    exact ⟨_, .intro isText⟩
  obtain ⟨projection, isProjection⟩ :
      ∃ projection, List.Forall₂ Expr.Spells query.projection projection :=
    Expr.exists_forall₂ fun e member => Expr.exists_spells (inProjection e member)
  obtain ⟨ordering, isOrdering⟩ :
      ∃ ordering, List.Forall₂ SortKey.Spells query.ordering ordering := by
    refine Expr.exists_forall₂ fun key member => ?_
    obtain ⟨text, isText⟩ := Expr.exists_spells (inOrdering key.expr ⟨key, member, rfl⟩)
    exact ⟨_, .intro isText⟩
  exact ⟨_, .intro isJoins isFilters isProjection isOrdering⟩

end Query

end FullTextQuery
