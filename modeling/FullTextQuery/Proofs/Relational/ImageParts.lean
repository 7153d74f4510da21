import FullTextQuery.Proofs.Relational.Image
import FullTextQuery.Proofs.Sql.Writing

namespace FullTextQuery.Expr

/-!
# The parts of images

Which expressions have an image is decided part by part, and the image has the
parameters and the membership tests that the parts of the expression ask for.
-/

/-- Whether a part of an expression has a meaning over the model, given that its own parts have. -/
def Meaningful
    (model : Model)
    (query : Query) :
    Expr → Prop
  | .item _ => False
  | .member source property =>
      ∃ entity, query.entityOf? model source = some entity ∧
        (entity.property? property).isSome
  | .call function args =>
      match (Expr.call function args).searchCall? with
      | some (source, _) =>
          ∃ entity, query.entityOf? model source = some entity ∧ entity.searchable?.isSome
      | none => isKnownFunction function args.length
  | _ => True

/-- The parameter that a part of an expression uses by itself. -/
def use?
    (e : Expr) :
    Option StatementParameter :=
  match e, e.searchCall? with
  | .parameter name, _ => some ⟨name, .caller⟩
  | _, some _ => some ⟨Search.keyParameter 1, .search⟩
  | _, none => none

/-- A part uses a value set by itself exactly if it is a search call. -/
theorem use?_eq_some_search
    {e : Expr}
    {name : String} :
    e.use? = some ⟨name, .search⟩ ↔ name = Search.keyParameter 1 ∧ e.searchCall?.isSome := by
  cases e with
  | parameter => simp [use?, searchCall?]
  | call function args =>
      cases isSearch : (Expr.call function args).searchCall? <;> simp [use?, isSearch, eq_comm]
  | _ => simp [use?, searchCall?]

/-- A part uses a value of the caller by itself exactly if it is a parameter. -/
theorem use?_eq_some_caller
    {e : Expr}
    {name : String} :
    e.use? = some ⟨name, .caller⟩ ↔ e = .parameter name := by
  cases e with
  | call function args =>
      cases isSearch : (Expr.call function args).searchCall? <;> simp [use?, isSearch]
  | _ => simp [use?, searchCall?]

/-- The membership test of a search call. -/
def keyTest?
    (model : Model)
    (query : Query)
    (call : String × SearchPhrase) :
    Option Membership := do
  let entity ← query.entityOf? model call.1
  let (key, _) ← entity.searchable?
  return ⟨.column call.1 key.column, Search.keyParameter 1, 1⟩

variable {model : Model} {query : Query} {image : RelExpr}

/-- A search call tests a column of its item. -/
theorem exists_of_keyTest?
    {searched : String × SearchPhrase}
    {test : Membership}
    (isTest : keyTest? model query searched = some test) :
    ∃ column, test = ⟨.column searched.1 column, Search.keyParameter 1, 1⟩ := by
  simp only [keyTest?, Option.bind_eq_bind, Option.bind_eq_some_iff, Option.pure_def,
    Option.some.injEq] at isTest
  obtain ⟨entity, _, found, _, rfl⟩ := isTest
  exact ⟨_, rfl⟩

section Inversion

variable {left right operand : Expr} {op : Comparison} {function : String} {args : List Expr}

/-- The image of a comparison compares the images of its sides. -/
theorem image?_compare_eq_some :
    (Expr.compare left op right).image? model query = some image ↔
      ∃ l r, left.image? model query = some l ∧ right.image? model query = some r ∧
        image = .compare l op r := by
  simp only [image?, Option.bind_eq_bind, Option.bind_eq_some_iff, Option.pure_def,
    Option.some.injEq]
  grind

/-- The image of a conjunction is the conjunction of the images. -/
theorem image?_and_eq_some :
    (Expr.and left right).image? model query = some image ↔
      ∃ l r, left.image? model query = some l ∧ right.image? model query = some r ∧
        image = .and l r := by
  simp only [image?, Option.bind_eq_bind, Option.bind_eq_some_iff, Option.pure_def,
    Option.some.injEq]
  grind

/-- The image of a disjunction is the disjunction of the images. -/
theorem image?_or_eq_some :
    (Expr.or left right).image? model query = some image ↔
      ∃ l r, left.image? model query = some l ∧ right.image? model query = some r ∧
        image = .or l r := by
  simp only [image?, Option.bind_eq_bind, Option.bind_eq_some_iff, Option.pure_def,
    Option.some.injEq]
  grind

/-- The image of a negation is the negated image. -/
theorem image?_not_eq_some :
    (Expr.not operand).image? model query = some image ↔
      ∃ o, operand.image? model query = some o ∧ image = .not o := by
  simp only [image?, Option.bind_eq_bind, Option.bind_eq_some_iff, Option.pure_def,
    Option.some.injEq]
  grind

/-- The image of a search call is the membership test of its key. -/
theorem image?_search_eq_some
    {searched : String × SearchPhrase}
    (isSearch : (Expr.call function args).searchCall? = some searched) :
    (Expr.call function args).image? model query = some image ↔
      ∃ test, keyTest? model query searched = some test ∧
        image = .membership test.operand test.parameter test.search := by
  simp only [image?, isSearch, keyTest?, Option.bind_eq_bind, Option.bind_eq_some_iff,
    Option.pure_def, Option.some.injEq]
  grind

/-- The image of any other call is the function of the images of its arguments. -/
theorem image?_call_eq_some
    (notSearch : (Expr.call function args).searchCall? = none) :
    (Expr.call function args).image? model query = some image ↔
      isKnownFunction function args.length ∧
        ∃ images, List.Forall₂ (fun arg result => arg.image? model query = some result)
          args images ∧ image = .function function images := by
  simp only [image?, notSearch]
  split
  · rename_i isKnown
    simp only [isKnown, true_and, Option.bind_eq_bind, Option.bind_eq_some_iff, Option.pure_def,
      Option.some.injEq, imageAll?_eq_some]
    grind
  · rename_i notKnown
    simp [notKnown]

end Inversion

/-- An expression has an image exactly if all of its parts are meaningful. -/
theorem exists_image?_iff
    {e : Expr} :
    (∃ image, e.image? model query = some image) ↔
      ∀ node ∈ e.nodes, node.Meaningful model query := by
  induction e with
  | item name =>
      simp [image?, nodes, Meaningful]
  | member source property =>
      simp [image?, nodes, Meaningful, Option.bind_eq_some_iff, Option.isSome_iff_exists]
  | literal value =>
      simp [image?, nodes, Meaningful]
  | parameter name =>
      simp [image?, nodes, Meaningful]
  | compare left op right leftHypothesis rightHypothesis =>
      have itself : (Expr.compare left op right).Meaningful model query := trivial
      simp only [image?_compare_eq_some, nodes, List.forall_mem_cons, List.forall_mem_append,
        itself, true_and, ← leftHypothesis, ← rightHypothesis]
      grind
  | and left right leftHypothesis rightHypothesis =>
      have itself : (Expr.and left right).Meaningful model query := trivial
      simp only [image?_and_eq_some, nodes, List.forall_mem_cons, List.forall_mem_append,
        itself, true_and, ← leftHypothesis, ← rightHypothesis]
      grind
  | or left right leftHypothesis rightHypothesis =>
      have itself : (Expr.or left right).Meaningful model query := trivial
      simp only [image?_or_eq_some, nodes, List.forall_mem_cons, List.forall_mem_append,
        itself, true_and, ← leftHypothesis, ← rightHypothesis]
      grind
  | not operand operandHypothesis =>
      have itself : (Expr.not operand).Meaningful model query := trivial
      simp only [image?_not_eq_some, nodes, List.forall_mem_cons, itself, true_and,
        ← operandHypothesis]
      grind
  | call function args argHypothesis =>
      cases isSearch : (Expr.call function args).searchCall? with
      | some searched =>
          simp [image?_search_eq_some isSearch, nodes, isSearch, Meaningful, keyTest?,
            Option.bind_eq_some_iff, Option.isSome_iff_exists]
      | none =>
          have itself : (Expr.call function args).Meaningful model query ↔
              isKnownFunction function args.length := by
            simp [Meaningful, isSearch]
          have argsHaveImages :
              (∃ images, List.Forall₂ (fun arg result => arg.image? model query = some result)
                args images) ↔ ∀ node ∈ args.flatMap nodes, node.Meaningful model query := by
            rw [List.exists_forall₂_iff]
            simp only [List.mem_flatMap, forall_exists_index, and_imp]
            exact ⟨fun each node arg isArg isNode =>
                (argHypothesis arg isArg).mp (each arg isArg) node isNode,
              fun each arg isArg =>
                (argHypothesis arg isArg).mpr fun node isNode => each node arg isArg isNode⟩
          simp only [image?_call_eq_some isSearch, nodes, isSearch, Option.isSome_none,
            Bool.false_eq_true, ↓reduceIte, List.forall_mem_cons, nodesOfAll_eq_flatMap,
            itself, ← argsHaveImages]
          grind

/-- Induction over an expression and its image at once. -/
theorem image?_induction
    {motive : Expr → RelExpr → Prop}
    (member : ∀ source property entity declared, query.entityOf? model source = some entity →
      entity.property? property = some declared →
      motive (.member source property) (.column source declared.column))
    (literal : ∀ value, motive (.literal value) (.literal value))
    (parameter : ∀ name, motive (.parameter name) (.parameter name))
    (compare : ∀ left op right l r, motive left l → motive right r →
      motive (.compare left op right) (.compare l op r))
    (and : ∀ left right l r, motive left l → motive right r →
      motive (.and left right) (.and l r))
    (or : ∀ left right l r, motive left l → motive right r → motive (.or left right) (.or l r))
    (not : ∀ operand o, motive operand o → motive (.not operand) (.not o))
    (search : ∀ e searched test, e.searchCall? = some searched →
      keyTest? model query searched = some test →
      motive e (.membership test.operand test.parameter test.search))
    (call : ∀ function args images, (Expr.call function args).searchCall? = none →
      isKnownFunction function args.length → List.Forall₂ motive args images →
      motive (.call function args) (.function function images))
    {e : Expr}
    (imaged : e.image? model query = some image) :
    motive e image := by
  induction e generalizing image with
  | item name =>
      simp [image?] at imaged
  | member source property =>
      simp only [image?, Option.bind_eq_bind, Option.bind_eq_some_iff, Option.pure_def,
        Option.some.injEq] at imaged
      obtain ⟨entity, ranges, declared, has, rfl⟩ := imaged
      exact member source property entity declared ranges has
  | literal value =>
      obtain rfl := Option.some.inj imaged
      exact literal value
  | parameter name =>
      obtain rfl := Option.some.inj imaged
      exact parameter name
  | compare left op right leftHypothesis rightHypothesis =>
      obtain ⟨l, r, leftImaged, rightImaged, rfl⟩ := image?_compare_eq_some.mp imaged
      exact compare left op right l r (leftHypothesis leftImaged) (rightHypothesis rightImaged)
  | and left right leftHypothesis rightHypothesis =>
      obtain ⟨l, r, leftImaged, rightImaged, rfl⟩ := image?_and_eq_some.mp imaged
      exact and left right l r (leftHypothesis leftImaged) (rightHypothesis rightImaged)
  | or left right leftHypothesis rightHypothesis =>
      obtain ⟨l, r, leftImaged, rightImaged, rfl⟩ := image?_or_eq_some.mp imaged
      exact or left right l r (leftHypothesis leftImaged) (rightHypothesis rightImaged)
  | not operand operandHypothesis =>
      obtain ⟨o, operandImaged, rfl⟩ := image?_not_eq_some.mp imaged
      exact not operand o (operandHypothesis operandImaged)
  | call function args argHypothesis =>
      cases isSearch : (Expr.call function args).searchCall? with
      | some searched =>
          obtain ⟨test, isTest, rfl⟩ := (image?_search_eq_some isSearch).mp imaged
          exact search _ searched test isSearch isTest
      | none =>
          obtain ⟨isKnown, images, related, rfl⟩ := (image?_call_eq_some isSearch).mp imaged
          refine call function args images isSearch isKnown ?_
          exact List.forall₂_imp_of_mem (fun arg isArg _ _ => argHypothesis arg isArg) related

/-- An image has no members. -/
theorem resolved_of_image?
    {e : Expr}
    (imaged : e.image? model query = some image) :
    image.Resolved := by
  refine image?_induction (motive := fun _ image => image.Resolved)
    ?member ?literal ?parameter ?compare ?and ?or ?not ?search ?call imaged
  case member =>
    intros
    simp [RelExpr.Resolved, RelExpr.nodes]
  case literal =>
    intros
    simp [RelExpr.Resolved, RelExpr.nodes]
  case parameter =>
    intros
    simp [RelExpr.Resolved, RelExpr.nodes]
  case compare =>
    intro left op right l r leftResolved rightResolved
    exact RelExpr.resolved_compare.mpr ⟨leftResolved, rightResolved⟩
  case and =>
    intro left right l r leftResolved rightResolved
    exact RelExpr.resolved_and.mpr ⟨leftResolved, rightResolved⟩
  case or =>
    intro left right l r leftResolved rightResolved
    exact RelExpr.resolved_or.mpr ⟨leftResolved, rightResolved⟩
  case not =>
    intro operand o operandResolved
    exact RelExpr.resolved_not.mpr operandResolved
  case search =>
    intro e searched test _ isTest
    obtain ⟨column, rfl⟩ := exists_of_keyTest? isTest
    simp [RelExpr.Resolved, RelExpr.nodes]
  case call =>
    intro function args images _ _ argsResolved
    refine RelExpr.resolved_function.mpr fun result isResult => ?_
    obtain ⟨arg, _, resolved⟩ := List.exists_of_forall₂_right argsResolved isResult
    exact resolved

/-- The uses of parameters in an image are those of the parts of the expression. -/
theorem uses_of_image?
    {e : Expr}
    (imaged : e.image? model query = some image) :
    image.uses = e.nodes.filterMap use? := by
  refine image?_induction (motive := fun e image => image.uses = e.nodes.filterMap use?)
    ?member ?literal ?parameter ?compare ?and ?or ?not ?search ?call imaged
  case member =>
    intros
    rfl
  case literal =>
    intros
    rfl
  case parameter =>
    intros
    rfl
  case compare =>
    intro left op right l r leftUses rightUses
    rw [RelExpr.uses, leftUses, rightUses, nodes, List.filterMap_cons_none rfl,
      List.filterMap_append]
  case and =>
    intro left right l r leftUses rightUses
    rw [RelExpr.uses, leftUses, rightUses, nodes, List.filterMap_cons_none rfl,
      List.filterMap_append]
  case or =>
    intro left right l r leftUses rightUses
    rw [RelExpr.uses, leftUses, rightUses, nodes, List.filterMap_cons_none rfl,
      List.filterMap_append]
  case not =>
    intro operand o operandUses
    rw [RelExpr.uses, operandUses, nodes, List.filterMap_cons_none rfl]
  case search =>
    intro e searched test isSearch isTest
    obtain ⟨column, rfl⟩ := exists_of_keyTest? isTest
    obtain ⟨text, rfl, _⟩ := searchCall?_eq_some.mp isSearch
    simp [RelExpr.uses, nodes, isSearch, use?]
  case call =>
    intro function args images notSearch _ argsUse
    simp only [RelExpr.uses, RelExpr.usesOfAll_eq_flatMap, nodes, notSearch, Option.isSome_none,
      Bool.false_eq_true, ↓reduceIte, nodesOfAll_eq_flatMap, use?, List.filterMap_cons_none,
      List.filterMap_flatMap]
    exact (List.flatMap_eq_of_forall₂ (argsUse.imp fun _ _ same => same.symm)).symm

/-- The membership tests of an image are those of the search calls of the expression. -/
theorem memberships_of_image?
    {e : Expr}
    (imaged : e.image? model query = some image) :
    List.Forall₂ (fun searched test => keyTest? model query searched = some test)
      e.searchCalls image.memberships := by
  refine image?_induction (motive := fun e image =>
      List.Forall₂ (fun searched test => keyTest? model query searched = some test)
        e.searchCalls image.memberships)
    ?member ?literal ?parameter ?compare ?and ?or ?not ?search ?call imaged
  case member =>
    intros
    exact .nil
  case literal =>
    intros
    exact .nil
  case parameter =>
    intros
    exact .nil
  case compare =>
    intro left op right l r leftTests rightTests
    rw [searchCalls_compare, RelExpr.memberships]
    exact List.rel_append leftTests rightTests
  case and =>
    intro left right l r leftTests rightTests
    rw [searchCalls_and, RelExpr.memberships]
    exact List.rel_append leftTests rightTests
  case or =>
    intro left right l r leftTests rightTests
    rw [searchCalls_or, RelExpr.memberships]
    exact List.rel_append leftTests rightTests
  case not =>
    intro operand o operandTests
    rw [searchCalls_not, RelExpr.memberships]
    exact operandTests
  case search =>
    intro e searched test isSearch isTest
    rw [searchCalls_of_searchCall? isSearch, RelExpr.memberships]
    obtain ⟨column, rfl⟩ := exists_of_keyTest? isTest
    exact .cons isTest .nil
  case call =>
    intro function args images notSearch _ argsTest
    rw [searchCalls_call notSearch, RelExpr.memberships, RelExpr.membershipsList_eq_flatMap]
    exact List.rel_flatMap argsTest fun _ _ tests => tests

end FullTextQuery.Expr
