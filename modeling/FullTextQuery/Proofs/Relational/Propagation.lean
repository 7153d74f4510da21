import FullTextQuery.Proofs.Relational.Resolution

namespace FullTextQuery

/-!
# Resolution node by node

Resolution turns members into columns and leaves every other node where it is.  So
what it makes of an expression has the same shape and the same membership tests,
and there is nothing left in it that a second resolution could change.
-/

/-- The parameter and the search that a membership test belongs to. -/
def Membership.label
    (test : Membership) :
    String × SearchId :=
  (test.parameter, test.search)

namespace RelExpr

/-- Whether a node can be resolved, given that its operands can. -/
def HasMeaning
    (scope : Scope) :
    RelExpr → Prop
  | .member item property =>
      ∃ found, scope.items.get? item = some found ∧ (found.entity.property? property).isSome
  | .function name args => isKnownFunction name args.length
  | _ => True

/-- Whether a node is not a member. -/
def IsNoMember
    (node : RelExpr) :
    Prop :=
  ∀ item property, node ≠ .member item property

/--
Whether two expressions have the same nodes in the same places, where the second has
the column that the scope maps a member to in place of the member.
-/
inductive SameShape (scope : Scope) : RelExpr → RelExpr → Prop
  | member {item property : String} {found : ScopeItem} {declared : Property} :
      scope.items.get? item = some found → found.entity.property? property = some declared →
        SameShape scope (.member item property) (.column found.tableAlias declared.column)
  | column {tableAlias name : String} :
      SameShape scope (.column tableAlias name) (.column tableAlias name)
  | literal {value : Value} : SameShape scope (.literal value) (.literal value)
  | parameter {name : String} : SameShape scope (.parameter name) (.parameter name)
  | compare {left right l r : RelExpr} {op : Comparison} :
      SameShape scope left l → SameShape scope right r →
        SameShape scope (.compare left op right) (.compare l op r)
  | and {left right l r : RelExpr} :
      SameShape scope left l → SameShape scope right r →
        SameShape scope (.and left right) (.and l r)
  | or {left right l r : RelExpr} :
      SameShape scope left l → SameShape scope right r →
        SameShape scope (.or left right) (.or l r)
  | not {operand o : RelExpr} :
      SameShape scope operand o → SameShape scope (.not operand) (.not o)
  | function {name : String} {args results : List RelExpr} :
      args.length = results.length →
        (∀ arg result, (arg, result) ∈ args.zip results → SameShape scope arg result) →
          SameShape scope (.function name args) (.function name results)
  | membership {operand o : RelExpr} {valueSet : String} {search : SearchId} :
      SameShape scope operand o →
        SameShape scope (.membership operand valueSet search) (.membership o valueSet search)

variable {scope other : Scope} {e result : RelExpr}

/-- A function whose arguments have the shapes of others has the shape of the function of those. -/
theorem SameShape.ofArgs
    {name : String}
    {args results : List RelExpr}
    (each : List.Forall₂ (SameShape scope) args results) :
    SameShape scope (.function name args) (.function name results) := by
  obtain ⟨sameLength, zipped⟩ := List.forall₂_iff_zip.mp each
  exact .function sameLength fun arg result member => zipped member

/-- Two operands in sequence, both of which must be there. -/
theorem bind_pair_eq_some
    (combine : RelExpr → RelExpr → RelExpr)
    {left? right? : Option RelExpr} :
    (do return combine (← left?) (← right?)) = some result ↔
      ∃ l r, left? = some l ∧ right? = some r ∧ combine l r = result := by
  cases left? <;> cases right? <;> simp

/-- What has a resolved form has a meaning at every node, and the form has its shape. -/
theorem sameShape_of_resolved?
    (resolved : e.resolved? scope = some result) :
    e.Every (HasMeaning scope) ∧ SameShape scope e result := by
  induction e generalizing result with
  | member item property =>
      simp only [resolved?, Option.bind_eq_bind, Option.bind_eq_some_iff, Option.pure_def,
        Option.some.injEq] at resolved
      obtain ⟨found, inScope, declared, has, rfl⟩ := resolved
      exact ⟨every_member.mpr ⟨found, inScope, by simp [has]⟩, .member inScope has⟩
  | column tableAlias name =>
      obtain rfl := Option.some.inj resolved
      exact ⟨every_column.mpr trivial, .column⟩
  | literal value =>
      obtain rfl := Option.some.inj resolved
      exact ⟨every_literal.mpr trivial, .literal⟩
  | parameter name =>
      obtain rfl := Option.some.inj resolved
      exact ⟨every_parameter.mpr trivial, .parameter⟩
  | compare left op right leftHypothesis rightHypothesis =>
      obtain ⟨l, r, isLeft, isRight, rfl⟩ :=
        (bind_pair_eq_some (RelExpr.compare · op ·)).mp resolved
      obtain ⟨leftHas, leftShape⟩ := leftHypothesis isLeft
      obtain ⟨rightHas, rightShape⟩ := rightHypothesis isRight
      exact ⟨every_compare.mpr ⟨trivial, leftHas, rightHas⟩, .compare leftShape rightShape⟩
  | and left right leftHypothesis rightHypothesis =>
      obtain ⟨l, r, isLeft, isRight, rfl⟩ := (bind_pair_eq_some RelExpr.and).mp resolved
      obtain ⟨leftHas, leftShape⟩ := leftHypothesis isLeft
      obtain ⟨rightHas, rightShape⟩ := rightHypothesis isRight
      exact ⟨every_and.mpr ⟨trivial, leftHas, rightHas⟩, .and leftShape rightShape⟩
  | or left right leftHypothesis rightHypothesis =>
      obtain ⟨l, r, isLeft, isRight, rfl⟩ := (bind_pair_eq_some RelExpr.or).mp resolved
      obtain ⟨leftHas, leftShape⟩ := leftHypothesis isLeft
      obtain ⟨rightHas, rightShape⟩ := rightHypothesis isRight
      exact ⟨every_or.mpr ⟨trivial, leftHas, rightHas⟩, .or leftShape rightShape⟩
  | not operand operandHypothesis =>
      simp only [resolved?, Option.bind_eq_bind, Option.bind_eq_some_iff, Option.pure_def,
        Option.some.injEq] at resolved
      obtain ⟨o, isOperand, rfl⟩ := resolved
      obtain ⟨has, shape⟩ := operandHypothesis isOperand
      exact ⟨every_not.mpr ⟨trivial, has⟩, .not shape⟩
  | function name args argHypothesis =>
      simp only [resolved?, Option.ite_none_right_eq_some, Option.bind_eq_bind,
        Option.bind_eq_some_iff, resolvedAll?_eq_some, Option.pure_def,
        Option.some.injEq] at resolved
      obtain ⟨known, results, each, rfl⟩ := resolved
      have both := List.forall₂_imp_of_mem
        (fun arg member _ _ isResult => argHypothesis arg member isResult) each
      obtain ⟨has, shapes⟩ := (List.forall₂_and_left _ _).mp both
      exact ⟨every_function.mpr ⟨known, has⟩, .ofArgs shapes⟩
  | membership operand valueSet search operandHypothesis =>
      simp only [resolved?, Option.bind_eq_bind, Option.bind_eq_some_iff, Option.pure_def,
        Option.some.injEq] at resolved
      obtain ⟨o, isOperand, rfl⟩ := resolved
      obtain ⟨has, shape⟩ := operandHypothesis isOperand
      exact ⟨every_membership.mpr ⟨trivial, has⟩, .membership shape⟩

/-- What has a meaning at every node has the shape of something without members. -/
theorem exists_sameShape
    (has : e.Every (HasMeaning scope)) :
    ∃ result, SameShape scope e result := by
  induction e with
  | member item property =>
      obtain ⟨found, inScope, declared⟩ := every_member.mp has
      obtain ⟨column, isColumn⟩ := Option.isSome_iff_exists.mp declared
      exact ⟨_, .member inScope isColumn⟩
  | column tableAlias name => exact ⟨_, .column⟩
  | literal value => exact ⟨_, .literal⟩
  | parameter name => exact ⟨_, .parameter⟩
  | compare left op right leftHypothesis rightHypothesis =>
      obtain ⟨-, leftHas, rightHas⟩ := every_compare.mp has
      obtain ⟨l, leftShape⟩ := leftHypothesis leftHas
      obtain ⟨r, rightShape⟩ := rightHypothesis rightHas
      exact ⟨_, .compare leftShape rightShape⟩
  | and left right leftHypothesis rightHypothesis =>
      obtain ⟨-, leftHas, rightHas⟩ := every_and.mp has
      obtain ⟨l, leftShape⟩ := leftHypothesis leftHas
      obtain ⟨r, rightShape⟩ := rightHypothesis rightHas
      exact ⟨_, .and leftShape rightShape⟩
  | or left right leftHypothesis rightHypothesis =>
      obtain ⟨-, leftHas, rightHas⟩ := every_or.mp has
      obtain ⟨l, leftShape⟩ := leftHypothesis leftHas
      obtain ⟨r, rightShape⟩ := rightHypothesis rightHas
      exact ⟨_, .or leftShape rightShape⟩
  | not operand operandHypothesis =>
      obtain ⟨o, shape⟩ := operandHypothesis (every_not.mp has).2
      exact ⟨_, .not shape⟩
  | function name args argHypothesis =>
      have argsHave := (every_function.mp has).2
      obtain ⟨results, each⟩ := List.exists_forall₂_iff.mpr fun arg member =>
        argHypothesis arg member (argsHave arg member)
      exact ⟨_, .ofArgs each⟩
  | membership operand valueSet search operandHypothesis =>
      obtain ⟨o, shape⟩ := operandHypothesis (every_membership.mp has).2
      exact ⟨_, .membership shape⟩

namespace SameShape

/-- An expression with a meaning at every node is resolved to what has its shape. -/
theorem resolved?
    (shape : SameShape scope e result)
    (has : e.Every (HasMeaning scope)) :
    e.resolved? scope = some result := by
  induction shape with
  | member inScope declared => simp [RelExpr.resolved?, inScope, declared]
  | column => rfl
  | literal => rfl
  | parameter => rfl
  | compare _ _ leftHypothesis rightHypothesis =>
      obtain ⟨-, leftHas, rightHas⟩ := every_compare.mp has
      simp [RelExpr.resolved?, leftHypothesis leftHas, rightHypothesis rightHas]
  | and _ _ leftHypothesis rightHypothesis =>
      obtain ⟨-, leftHas, rightHas⟩ := every_and.mp has
      simp [RelExpr.resolved?, leftHypothesis leftHas, rightHypothesis rightHas]
  | or _ _ leftHypothesis rightHypothesis =>
      obtain ⟨-, leftHas, rightHas⟩ := every_or.mp has
      simp [RelExpr.resolved?, leftHypothesis leftHas, rightHypothesis rightHas]
  | not _ operandHypothesis =>
      simp [RelExpr.resolved?, operandHypothesis (every_not.mp has).2]
  | @function name args results sameLength _ argHypothesis =>
      obtain ⟨known, argsHave⟩ := every_function.mp has
      have each : resolvedAll? scope args = some results := by
        refine resolvedAll?_eq_some.mpr (List.forall₂_iff_zip.mpr ⟨sameLength, ?_⟩)
        intro arg result member
        exact argHypothesis arg result member (argsHave arg (List.of_mem_zip member).1)
      have isKnown : isKnownFunction name args.length = true := known
      simp [RelExpr.resolved?, isKnown, each]
  | membership _ operandHypothesis =>
      simp [RelExpr.resolved?, operandHypothesis (every_membership.mp has).2]

/-- No member is left. -/
theorem noMember
    (shape : SameShape scope e result) :
    result.Every IsNoMember := by
  induction shape with
  | member => simp [IsNoMember]
  | column => simp [IsNoMember]
  | literal => simp [IsNoMember]
  | parameter => simp [IsNoMember]
  | compare _ _ left right => simp [IsNoMember, left, right]
  | and _ _ left right => simp [IsNoMember, left, right]
  | or _ _ left right => simp [IsNoMember, left, right]
  | not _ operand => simp [IsNoMember, operand]
  | function sameLength _ argHypothesis =>
      refine every_function.mpr ⟨by simp [IsNoMember], ?_⟩
      have each := List.forall₂_iff_zip.mpr ⟨sameLength, fun {_ _} => argHypothesis _ _⟩
      intro result isResult
      obtain ⟨_, _, noMember⟩ := List.exists_of_forall₂_right each isResult
      exact noMember
  | membership _ operand => simp [IsNoMember, operand]

/-- The membership tests stay where they are. -/
theorem labels_eq
    (shape : SameShape scope e result) :
    result.memberships.map Membership.label = e.memberships.map Membership.label := by
  induction shape with
  | member => rfl
  | column => rfl
  | literal => rfl
  | parameter => rfl
  | compare _ _ left right => simp [memberships, left, right]
  | and _ _ left right => simp [memberships, left, right]
  | or _ _ left right => simp [memberships, left, right]
  | not _ operand => simpa [memberships] using operand
  | function sameLength _ argHypothesis =>
      have each := List.forall₂_iff_zip.mpr ⟨sameLength, fun {_ _} => argHypothesis _ _⟩
      rw [memberships, memberships, membershipsList_eq_flatMap, membershipsList_eq_flatMap,
        List.map_flatMap, List.map_flatMap]
      exact (List.flatMap_eq_of_forall₂ (each.imp fun _ _ same => same.symm)).symm
  | membership _ operand => simp [memberships, Membership.label, operand]

/-- Without members an expression has its own shape, over any scope. -/
theorem refl
    (noMember : e.Every IsNoMember) :
    SameShape scope e e := by
  induction e with
  | member item property => exact absurd rfl (every_member.mp noMember item property)
  | column => exact .column
  | literal => exact .literal
  | parameter => exact .parameter
  | compare left op right leftHypothesis rightHypothesis =>
      obtain ⟨-, inLeft, inRight⟩ := every_compare.mp noMember
      exact .compare (leftHypothesis inLeft) (rightHypothesis inRight)
  | and left right leftHypothesis rightHypothesis =>
      obtain ⟨-, inLeft, inRight⟩ := every_and.mp noMember
      exact .and (leftHypothesis inLeft) (rightHypothesis inRight)
  | or left right leftHypothesis rightHypothesis =>
      obtain ⟨-, inLeft, inRight⟩ := every_or.mp noMember
      exact .or (leftHypothesis inLeft) (rightHypothesis inRight)
  | not operand operandHypothesis =>
      exact .not (operandHypothesis (every_not.mp noMember).2)
  | function name args argHypothesis =>
      have inArgs := (every_function.mp noMember).2
      exact .ofArgs (List.forall₂_same.mpr fun arg member =>
        argHypothesis arg member (inArgs arg member))
  | membership operand valueSet search operandHypothesis =>
      exact .membership (operandHypothesis (every_membership.mp noMember).2)

/-- The nodes of the result have a meaning over any scope: no name of an item is left in them. -/
theorem hasMeaning
    (shape : SameShape scope e result)
    (has : e.Every (HasMeaning scope)) :
    result.Every (HasMeaning other) := by
  induction shape with
  | member => exact every_column.mpr trivial
  | column => exact every_column.mpr trivial
  | literal => exact every_literal.mpr trivial
  | parameter => exact every_parameter.mpr trivial
  | compare _ _ leftHypothesis rightHypothesis =>
      obtain ⟨-, leftHas, rightHas⟩ := every_compare.mp has
      exact every_compare.mpr ⟨trivial, leftHypothesis leftHas, rightHypothesis rightHas⟩
  | and _ _ leftHypothesis rightHypothesis =>
      obtain ⟨-, leftHas, rightHas⟩ := every_and.mp has
      exact every_and.mpr ⟨trivial, leftHypothesis leftHas, rightHypothesis rightHas⟩
  | or _ _ leftHypothesis rightHypothesis =>
      obtain ⟨-, leftHas, rightHas⟩ := every_or.mp has
      exact every_or.mpr ⟨trivial, leftHypothesis leftHas, rightHypothesis rightHas⟩
  | not _ operandHypothesis =>
      exact every_not.mpr ⟨trivial, operandHypothesis (every_not.mp has).2⟩
  | @function name args results sameLength _ argHypothesis =>
      obtain ⟨known, argsHave⟩ := every_function.mp has
      have each := List.forall₂_iff_zip.mpr ⟨sameLength, fun {_ _} => argHypothesis _ _⟩
      refine every_function.mpr ⟨?_, fun result isResult => ?_⟩
      · simpa [HasMeaning, ← sameLength] using known
      · obtain ⟨arg, isArg, keeps⟩ := List.exists_of_forall₂_right each isResult
        exact keeps (argsHave arg isArg)
  | membership _ operandHypothesis =>
      exact every_membership.mpr ⟨trivial, operandHypothesis (every_membership.mp has).2⟩

end SameShape

/-- Without rules, what is resolved has no membership tests. -/
theorem memberships_eq_nil_of_resolve
    (resolved : e.resolve [] scope = .ok result) :
    e.memberships = [] := by
  induction e generalizing result with
  | member => rfl
  | column => rfl
  | literal => rfl
  | parameter => rfl
  | compare left op right leftHypothesis rightHypothesis =>
      simp only [resolve, settle_compare, Except.bind_eq_ok] at resolved
      obtain ⟨l, isLeft, r, isRight, -⟩ := resolved
      simp [memberships, leftHypothesis isLeft, rightHypothesis isRight]
  | and left right leftHypothesis rightHypothesis =>
      simp only [resolve, settle_and, Except.bind_eq_ok] at resolved
      obtain ⟨l, isLeft, r, isRight, -⟩ := resolved
      simp [memberships, leftHypothesis isLeft, rightHypothesis isRight]
  | or left right leftHypothesis rightHypothesis =>
      simp only [resolve, settle_or, Except.bind_eq_ok] at resolved
      obtain ⟨l, isLeft, r, isRight, -⟩ := resolved
      simp [memberships, leftHypothesis isLeft, rightHypothesis isRight]
  | not operand operandHypothesis =>
      simp only [resolve, settle_not, Except.bind_eq_ok] at resolved
      obtain ⟨o, isOperand, -⟩ := resolved
      simpa [memberships] using operandHypothesis isOperand
  | function name args argHypothesis =>
      simp only [resolve, settle, resolveNode, resolveAll_eq_map, collect_map] at resolved
      by_cases known : isKnownFunction name args.length
      · simp only [known, ↓reduceIte, Except.bind_eq_ok, Except.mapM_eq_ok] at resolved
        obtain ⟨_, ⟨results, each, -⟩, -⟩ := resolved
        rw [memberships, membershipsList_eq_flatMap, List.flatMap_eq_nil_iff]
        intro arg member
        obtain ⟨result, isResult⟩ := List.exists_forall₂_iff.mp ⟨_, each⟩ arg member
        exact argHypothesis arg member isResult
      · simp [known, ResolutionRule.offer] at resolved
  | membership operand valueSet search =>
      simp [resolve, settle, resolveNode, ResolutionRule.offer] at resolved

/-- What the resolved form of an expression keeps of it. -/
structure Propagated
    (scope : Scope)
    (e result : RelExpr) :
    Prop where
  noMember : result.Every IsNoMember
  sameShape : SameShape scope e result
  sameTests : result.memberships.map Membership.label = e.memberships.map Membership.label
  again : ∀ other : Scope, result.resolve [Search.keepMembership] other = .ok result

/--
With the rule for membership tests an expression is resolved exactly if its members name
properties of declared items and its functions are known.  The resolved form has no
members, the same shape and the same membership tests, and is its own resolved form.
Without the rule nothing with a membership test is resolved.
-/
theorem propagates_memberships
    (scope : Scope)
    (e : RelExpr) :
    ((∃ result, e.resolve [Search.keepMembership] scope = .ok result) ↔
      e.Every (HasMeaning scope)) ∧
    (∀ result, e.resolve [Search.keepMembership] scope = .ok result →
      Propagated scope e result) ∧
    (e.memberships ≠ [] → ∀ result, e.resolve [] scope ≠ .ok result) := by
  refine ⟨⟨?_, ?_⟩, ?_, ?_⟩
  · rintro ⟨result, resolved⟩
    exact (sameShape_of_resolved? (resolve_eq_ok.mp resolved)).1
  · intro has
    obtain ⟨result, shape⟩ := exists_sameShape has
    exact ⟨result, resolve_eq_ok.mpr (shape.resolved? has)⟩
  · intro result resolved
    obtain ⟨has, shape⟩ := sameShape_of_resolved? (resolve_eq_ok.mp resolved)
    refine ⟨shape.noMember, shape, shape.labels_eq, fun other => ?_⟩
    have unchanged : SameShape other result result := .refl shape.noMember
    exact resolve_eq_ok.mpr (unchanged.resolved? (shape.hasMeaning has))
  · intro hasTest result resolved
    exact hasTest (memberships_eq_nil_of_resolve resolved)

end RelExpr

end FullTextQuery
