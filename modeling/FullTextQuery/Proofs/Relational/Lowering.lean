import FullTextQuery.Extension.Search
import FullTextQuery.Proofs.Pointwise
import FullTextQuery.Proofs.Model.Built
import FullTextQuery.Proofs.Query.Nodes
import FullTextQuery.Proofs.Relational.Recording

namespace FullTextQuery

/-!
# What lowering makes of an expression

With the rule for search calls, an expression is lowered exactly if its members
have items in scope, no item stands for a value, and its search calls can be
put on record, of which there is at most one.  The lowered form and the effect
on the record are given here without rules.
-/

namespace Entity

/-- What a search over an entity needs: a single key of a kind that keys have, and an index. -/
def searchable?
    (entity : Entity) :
    Option (Property × String) := do
  let key ← entity.keyProperty?
  if key.kind = .real then none else entity.searchIndex?.map (key, ·)

/-- The key of an entity is the property under the one name of its key. -/
theorem keyProperty?_eq_some
    {entity : Entity}
    {key : Property} :
    entity.keyProperty? = some key ↔
      entity.primaryKey = [key.name] ∧ entity.property? key.name = some key := by
  have named : ∀ {name}, entity.property? name = some key → key.name = name := by
    intro name found
    simpa using List.find?_some found
  unfold keyProperty?
  split
  · rename_i name shape
    rw [shape]
    constructor
    · intro found
      rw [named found]
      exact ⟨rfl, found⟩
    · rintro ⟨sameName, found⟩
      rwa [(List.cons.inj sameName).1]
  · rename_i notSingle
    simp only [reduceCtorEq, false_iff, not_and]
    intro shape
    exact absurd shape (notSingle key.name)

/-- An entity can be searched by a single key that is no real, and with an index. -/
theorem searchable?_eq_some
    {entity : Entity}
    {key : Property}
    {index : String} :
    entity.searchable? = some (key, index) ↔
      entity.primaryKey = [key.name] ∧ entity.property? key.name = some key ∧
        key.kind ≠ .real ∧ entity.searchIndex? = some index := by
  simp only [searchable?, Option.bind_eq_bind, Option.bind_eq_some_iff, keyProperty?_eq_some]
  constructor
  · rintro ⟨found, ⟨isKey, has⟩, indexed⟩
    split at indexed
    · simp at indexed
    · rename_i notReal
      obtain ⟨_, isIndex, same⟩ := Option.map_eq_some_iff.mp indexed
      obtain ⟨rfl, rfl⟩ := Prod.mk.inj same
      exact ⟨isKey, has, notReal, isIndex⟩
  · rintro ⟨isKey, has, notReal, isIndex⟩
    exact ⟨key, ⟨isKey, has⟩, by simp [notReal, isIndex]⟩

end Entity

namespace Search

/-- A search gets its key and its index from an entity that can be searched. -/
theorem keyAndIndex_eq_ok
    {entity : Entity}
    {found : Property × String} :
    keyAndIndex entity = .ok found ↔ entity.searchable? = some found := by
  unfold keyAndIndex Entity.searchable?
  rw [Except.bind_eq_ok]
  simp only [Entity.singleKey_eq_ok, Option.bind_eq_bind, Option.bind_eq_some_iff]
  refine exists_congr fun key => and_congr_right fun _ => ?_
  cases kind : key.kind <;> cases entity.searchIndex? <;> simp

/-- An entity that passes its check cannot be searched for a reason of planning only. -/
theorem failsOnlyBy_keyAndIndex
    {entity : Entity}
    (passed : entity.check = .ok ()) :
    (keyAndIndex entity).FailsOnlyBy Error.IsPlan := by
  refine (Entity.failsOnlyBy_singleKey passed).bind fun key _ => ?_
  intro e failed
  cases kind : key.kind <;> cases index : entity.searchIndex? <;>
    simp [kind, index] at failed <;> exact ⟨_, failed.symm⟩

/-- What is put on record for a search call, the first of its query. -/
def planned?
    (scope : Scope)
    (call : String × Expr.SearchPhrase) :
    Option PlannedSearch := do
  let found ← scope.items.get? call.1
  let (key, index) ← found.entity.searchable?
  return {
    id := 1
    parameter := keyParameter 1
    phrase := call.2
    index
    entity := found.entity.name
    keyName := key.name
    keyKind := key.kind }

/-- The keys of a planned search go to the parameter of the first search. -/
theorem parameter_of_planned?
    {scope : Scope}
    {call : String × Expr.SearchPhrase}
    {search : PlannedSearch}
    (planned : planned? scope call = some search) :
    search.parameter = keyParameter 1 := by
  simp only [planned?, Option.bind_eq_bind, Option.bind_eq_some_iff, Option.pure_def,
    Option.some.injEq] at planned
  obtain ⟨_, _, _, _, rfl⟩ := planned
  rfl

end Search

namespace PlannedSearches

/-- A record is empty and has handed out no identity, or it has a search. -/
def Regular
    (searches : PlannedSearches) :
    Prop :=
  searches = {} ∨ searches.recorded ≠ []

/-- The record after a search call; a second one cannot be put on it. -/
def afterCall?
    (scope : Scope)
    (searches : PlannedSearches)
    (call : String × Expr.SearchPhrase) :
    Option PlannedSearches :=
  if searches = {} then
    (Search.planned? scope call).map fun search => ⟨[search], 1⟩
  else
    none

/-- The record after search calls. -/
def after?
    (scope : Scope)
    (calls : List (String × Expr.SearchPhrase))
    (searches : PlannedSearches) :
    Option PlannedSearches :=
  calls.foldlM (afterCall? scope) searches

variable {scope : Scope} {before after : PlannedSearches}

@[simp] theorem after?_nil :
    after? scope [] before = some before :=
  rfl

/-- Calls one behind the other are recorded one after the other. -/
theorem after?_append
    (first second : List (String × Expr.SearchPhrase)) :
    after? scope (first ++ second) before =
      (after? scope first before).bind (after? scope second) := by
  simp only [after?, List.foldlM_append]
  rfl

/-- A record stays regular when a call is recorded. -/
theorem Regular.afterCall?
    {call : String × Expr.SearchPhrase}
    (recorded : PlannedSearches.afterCall? scope before call = some after) :
    after.Regular := by
  unfold PlannedSearches.afterCall? at recorded
  split at recorded
  · obtain ⟨search, _, rfl⟩ := Option.map_eq_some_iff.mp recorded
    exact .inr (by simp)
  · simp at recorded

/-- Search calls keep the record regular. -/
theorem Regular.after?
    {calls : List (String × Expr.SearchPhrase)}
    (regular : before.Regular)
    (recorded : PlannedSearches.after? scope calls before = some after) :
    after.Regular := by
  induction calls generalizing before with
  | nil =>
      obtain rfl : before = after := by simpa using recorded
      exact regular
  | cons call rest inductionHypothesis =>
      obtain ⟨between, callRecorded, restRecorded⟩ :=
        Option.bind_eq_some_iff.mp (by simpa [PlannedSearches.after?] using recorded)
      exact inductionHypothesis (.afterCall? callRecorded) restRecorded

/-- From the empty record there is a way on exactly for no search call or for one. -/
theorem after?_empty_eq_some
    {calls : List (String × Expr.SearchPhrase)} :
    after? scope calls {} = some after ↔
      (calls = [] ∧ after = {}) ∨
        ∃ call search, calls = [call] ∧ Search.planned? scope call = some search ∧
          after = ⟨[search], 1⟩ := by
  match calls with
  | [] =>
      simp [eq_comm]
  | [call] =>
      simp [after?, afterCall?, eq_comm (b := after)]
  | first :: second :: rest =>
      cases planned : Search.planned? scope first <;>
        simp [after?, afterCall?, planned]

end PlannedSearches

namespace Expr

mutual

/-- The lowered form: members stay, and a search call becomes a membership test of a key. -/
def lowered?
    (scope : Scope) :
    Expr → Option RelExpr
  | .item _ => none
  | .member source property => (scope.items.get? source).map fun _ => .member source property
  | .literal value => some (.literal value)
  | .parameter name => some (.parameter name)
  | .compare left op right => do
      return .compare (← lowered? scope left) op (← lowered? scope right)
  | .and left right => do return .and (← lowered? scope left) (← lowered? scope right)
  | .or left right => do return .or (← lowered? scope left) (← lowered? scope right)
  | .not operand => do return .not (← lowered? scope operand)
  | .call function args =>
      match (Expr.call function args).searchCall? with
      | some (source, _) => do
          let found ← scope.items.get? source
          let (key, _) ← found.entity.searchable?
          return .membership (.member source key.name) (Search.keyParameter 1) 1
      | none => do return .function function (← loweredAll? scope args)

/-- The lowered forms of arguments. -/
def loweredAll?
    (scope : Scope) :
    List Expr → Option (List RelExpr)
  | [] => some []
  | arg :: args => do
      return (← lowered? scope arg) :: (← loweredAll? scope args)

end

/-- Arguments have lowered forms exactly if every single one has. -/
theorem loweredAll?_eq_some
    {scope : Scope}
    {args : List Expr}
    {results : List RelExpr} :
    loweredAll? scope args = some results ↔
      List.Forall₂ (fun arg result => arg.lowered? scope = some result) args results := by
  induction args generalizing results with
  | nil =>
      simp [loweredAll?, eq_comm]
  | cons arg args inductionHypothesis =>
      cases results with
      | nil => simp [loweredAll?, Option.bind_eq_some_iff]
      | cons result results =>
          simp [loweredAll?, Option.bind_eq_some_iff, inductionHypothesis]

/-- Arguments are lowered one by one. -/
theorem lowerAll_eq_map
    (rules : List LoweringRule)
    (scope : Scope)
    (args : List Expr) :
    lowerAll rules scope args = args.map (lower rules scope) := by
  induction args with
  | nil => rfl
  | cons arg args inductionHypothesis => simp [lowerAll, inductionHypothesis]

end Expr

namespace Lowering

open PlannedSearches

variable {scope : Scope} {before after : PlannedSearches}

/-- Lowerings with an effect on the record of their search calls only have one together. -/
theorem yields_sequence
    {lowering : α → Lowering β}
    {relation : α → β → Prop}
    {calls : α → List (String × Expr.SearchPhrase)}
    {items : List α}
    (each : ∀ item ∈ items, ∀ {before value after}, before.Regular →
      (Yields (lowering item) before value after ↔
        relation item value ∧ after? scope (calls item) before = some after))
    (regular : before.Regular)
    {values : List β} :
    Yields (sequence (items.map lowering)) before values after ↔
      List.Forall₂ relation items values ∧
        after? scope (items.flatMap calls) before = some after := by
  induction items generalizing before values with
  | nil =>
      simp [sequence, yields_pure, eq_comm (a := after)]
  | cons item rest inductionHypothesis =>
      obtain ⟨itemYields, restYields⟩ := List.forall_mem_cons.mp each
      simp only [List.map_cons, sequence, yields_bind, yields_pure, List.flatMap_cons,
        after?_append, Option.bind_eq_some_iff]
      constructor
      · rintro ⟨value, between, itemLowered, others, _, restLowered, rfl, rfl⟩
        obtain ⟨related, itemRecorded⟩ := (itemYields regular).mp itemLowered
        obtain ⟨restRelated, restRecorded⟩ :=
          (inductionHypothesis restYields (regular.after? itemRecorded)).mp restLowered
        exact ⟨.cons related restRelated, between, itemRecorded, restRecorded⟩
      · rintro ⟨_ | ⟨related, restRelated⟩, between, itemRecorded, restRecorded⟩
        exact ⟨_, between, (itemYields regular).mpr ⟨related, itemRecorded⟩, _, _,
          (inductionHypothesis restYields (regular.after? itemRecorded)).mpr
            ⟨restRelated, restRecorded⟩, rfl, rfl⟩

/-- An expression that is no search call is not claimed. -/
theorem offer_of_not_search
    {e : Expr}
    (notSearch : e.searchCall? = none)
    (operands : List (Lowering RelExpr))
    (default : Lowering RelExpr) :
    LoweringRule.offer scope e operands default [Search.lowerCall] = default := by
  simp [LoweringRule.offer, Search.lowerCall, notSearch]

/-- An item has an entry in scope exactly if it can be looked up. -/
theorem item_mapError_eq_ok
    {item : String}
    {found : ScopeItem} :
    (scope.item item).mapError Error.plan = .ok found ↔ scope.items.get? item = some found := by
  unfold Scope.item
  cases scope.items.get? item <;> simp

/-- The rule for search calls claims a search call as long as nothing is on record. -/
theorem yields_lowerCall_of_search
    {e : Expr}
    {item : String}
    {phrase : Expr.SearchPhrase}
    (isSearch : e.searchCall? = some (item, phrase))
    {operands : List (Lowering RelExpr)}
    {claimed? : Option RelExpr} :
    Yields (Search.lowerCall scope e operands) before claimed? after ↔
      before.recorded = [] ∧
        ∃ found, scope.items.get? item = some found ∧
          ∃ key index, found.entity.searchable? = some (key, index) ∧
            claimed? = some (.membership (.member item key.name)
              (Search.keyParameter (before.lastId + 1)) (before.lastId + 1)) ∧
            after = before.advance.add {
              id := before.lastId + 1
              parameter := Search.keyParameter (before.lastId + 1)
              phrase
              index
              entity := found.entity.name
              keyName := key.name
              keyKind := key.kind } := by
  simp only [Search.lowerCall, isSearch, yields_bind, yields_searches]
  by_cases nothing : before.recorded = []
  · simp only [nothing, true_and]
    constructor
    · rintro ⟨_, _, ⟨rfl, rfl⟩, lowered⟩
      simp only [List.isEmpty_nil, Bool.not_true, Bool.false_eq_true, ↓reduceIte, yields_bind,
        yields_ofExcept, item_mapError_eq_ok, Search.keyAndIndex_eq_ok, yields_nextId,
        yields_record, yields_pure] at lowered
      obtain ⟨found, _, ⟨inScope, rfl⟩, ⟨key, index⟩, _, ⟨searchable, rfl⟩, _, _, ⟨rfl, rfl⟩,
        _, _, rfl, rfl, rfl⟩ := lowered
      exact ⟨found, inScope, key, index, searchable, rfl, rfl⟩
    · rintro ⟨found, inScope, key, index, searchable, rfl, rfl⟩
      refine ⟨_, _, ⟨rfl, rfl⟩, ?_⟩
      simp only [List.isEmpty_nil, Bool.not_true, Bool.false_eq_true, ↓reduceIte, yields_bind,
        yields_ofExcept, item_mapError_eq_ok, Search.keyAndIndex_eq_ok, yields_nextId,
        yields_record, yields_pure]
      exact ⟨found, _, ⟨inScope, rfl⟩, ⟨key, index⟩, _, ⟨searchable, rfl⟩, _, _, ⟨rfl, rfl⟩,
        (), _, rfl, rfl, rfl⟩
  · constructor
    · rintro ⟨_, _, ⟨rfl, rfl⟩, lowered⟩
      simp [nothing, not_yields_throw] at lowered
    · rintro ⟨impossible, _⟩
      exact absurd impossible nothing

/-- A search call is lowered to a membership test of its key, and its search put on record. -/
theorem yields_offer_of_search
    {e : Expr}
    {item : String}
    {phrase : Expr.SearchPhrase}
    (isSearch : e.searchCall? = some (item, phrase))
    (regular : before.Regular)
    {operands : List (Lowering RelExpr)}
    {default : Lowering RelExpr}
    {value : RelExpr} :
    Yields (LoweringRule.offer scope e operands default [Search.lowerCall]) before value after ↔
      (∃ found, scope.items.get? item = some found ∧
        ∃ key index, found.entity.searchable? = some (key, index) ∧
          value = .membership (.member item key.name) (Search.keyParameter 1) 1) ∧
        afterCall? scope before (item, phrase) = some after := by
  simp only [LoweringRule.offer, yields_bind, yields_lowerCall_of_search isSearch]
  rcases regular with rfl | nonempty
  · constructor
    · rintro ⟨_, _, ⟨_, found, inScope, key, index, searchable, rfl, rfl⟩, claimed⟩
      obtain ⟨rfl, rfl⟩ := yields_pure.mp claimed
      refine ⟨⟨found, inScope, key, index, searchable, rfl⟩, ?_⟩
      simp [afterCall?, Search.planned?, inScope, searchable, PlannedSearches.add,
        PlannedSearches.advance]
    · rintro ⟨⟨found, inScope, key, index, searchable, rfl⟩, recorded⟩
      refine ⟨_, _, ⟨rfl, found, inScope, key, index, searchable, rfl, rfl⟩, ?_⟩
      refine yields_pure.mpr ⟨rfl, ?_⟩
      simpa [afterCall?, Search.planned?, inScope, searchable, PlannedSearches.add,
        PlannedSearches.advance, eq_comm] using recorded
  · have notEmpty : before ≠ {} := by
      rintro rfl
      exact nonempty rfl
    simp [nonempty, afterCall?, notEmpty]

/-- An expression is lowered to its lowered form, with the effect of its search calls. -/
def Faithful
    (scope : Scope)
    (e : Expr) :
    Prop :=
  ∀ {before value after}, before.Regular →
    (Yields (e.lower [Search.lowerCall] scope) before value after ↔
      e.lowered? scope = some value ∧ after? scope e.searchCalls before = some after)

/-- Two operands are lowered one after the other, the left one first. -/
theorem Faithful.both
    {left right : Expr}
    (combine : RelExpr → RelExpr → RelExpr)
    {value : RelExpr}
    (leftFaithful : Faithful scope left)
    (rightFaithful : Faithful scope right)
    (regular : before.Regular) :
    Yields
        (do
          return combine
            (← left.lower [Search.lowerCall] scope)
            (← right.lower [Search.lowerCall] scope))
        before value after ↔
      (do return combine (← left.lowered? scope) (← right.lowered? scope)) = some value ∧
        after? scope (left.searchCalls ++ right.searchCalls) before = some after := by
  simp only [yields_bind, yields_pure, after?_append, Option.bind_eq_bind,
    Option.bind_eq_some_iff, Option.pure_def, Option.some.injEq]
  constructor
  · rintro ⟨l, between, leftYields, r, _, rightYields, rfl, rfl⟩
    obtain ⟨leftLowered, leftRecorded⟩ := (leftFaithful regular).mp leftYields
    obtain ⟨rightLowered, rightRecorded⟩ :=
      (rightFaithful (regular.after? leftRecorded)).mp rightYields
    exact ⟨⟨l, leftLowered, r, rightLowered, rfl⟩, between, leftRecorded, rightRecorded⟩
  · rintro ⟨⟨l, leftLowered, r, rightLowered, rfl⟩, between, leftRecorded, rightRecorded⟩
    exact ⟨l, between, (leftFaithful regular).mpr ⟨leftLowered, leftRecorded⟩, r, after,
      (rightFaithful (regular.after? leftRecorded)).mpr ⟨rightLowered, rightRecorded⟩, rfl, rfl⟩

/-- With the rule for search calls, every expression is lowered faithfully. -/
theorem faithful
    (scope : Scope)
    (e : Expr) :
    Faithful scope e := by
  intro before value after regular
  induction e generalizing before value after with
  | item name =>
      rw [Expr.lower, offer_of_not_search rfl]
      simp [not_yields_throw, Expr.lowered?]
  | member item property =>
      rw [Expr.lower, offer_of_not_search rfl]
      simp only [yields_bind, yields_ofExcept, item_mapError_eq_ok, yields_pure, Expr.lowered?,
        Expr.searchCalls_member, after?_nil]
      cases scope.items.get? item <;> simp [eq_comm]
  | literal value =>
      rw [Expr.lower, offer_of_not_search rfl]
      simp [yields_pure, Expr.lowered?, eq_comm]
  | parameter name =>
      rw [Expr.lower, offer_of_not_search rfl]
      simp [yields_pure, Expr.lowered?, eq_comm]
  | compare left op right leftFaithful rightFaithful =>
      rw [Expr.lower, offer_of_not_search rfl, Expr.searchCalls_compare]
      exact Faithful.both (.compare · op ·) leftFaithful rightFaithful regular
  | and left right leftFaithful rightFaithful =>
      rw [Expr.lower, offer_of_not_search rfl, Expr.searchCalls_and]
      exact Faithful.both .and leftFaithful rightFaithful regular
  | or left right leftFaithful rightFaithful =>
      rw [Expr.lower, offer_of_not_search rfl, Expr.searchCalls_or]
      exact Faithful.both .or leftFaithful rightFaithful regular
  | not operand operandFaithful =>
      rw [Expr.lower, offer_of_not_search rfl, Expr.searchCalls_not]
      simp only [yields_bind, yields_pure, Expr.lowered?, Option.bind_eq_bind,
        Option.bind_eq_some_iff, Option.pure_def, Option.some.injEq]
      constructor
      · rintro ⟨o, _, operandYields, rfl, rfl⟩
        obtain ⟨lowered, recorded⟩ := (operandFaithful regular).mp operandYields
        exact ⟨⟨o, lowered, rfl⟩, recorded⟩
      · rintro ⟨⟨o, lowered, rfl⟩, recorded⟩
        exact ⟨o, _, (operandFaithful regular).mpr ⟨lowered, recorded⟩, rfl, rfl⟩
  | call function args argFaithful =>
      rw [Expr.lower]
      cases isSearch : (Expr.call function args).searchCall? with
      | some searched =>
          obtain ⟨item, phrase⟩ := searched
          rw [yields_offer_of_search isSearch regular, Expr.searchCalls_of_searchCall? isSearch]
          simp [Expr.lowered?, isSearch, after?, Option.bind_eq_some_iff, eq_comm (b := value)]
      | none =>
          rw [offer_of_not_search isSearch, Expr.lowerAll_eq_map, yields_bind,
            Expr.searchCalls_call isSearch]
          simp only [yields_pure, Expr.lowered?, isSearch, Option.bind_eq_bind,
            Option.bind_eq_some_iff, Option.pure_def, Option.some.injEq,
            Expr.loweredAll?_eq_some]
          have argsYield : ∀ {values between},
              Yields (sequence (args.map (Expr.lower [Search.lowerCall] scope)))
                before values between ↔
              List.Forall₂ (fun arg value => arg.lowered? scope = some value) args values ∧
                after? scope (args.flatMap Expr.searchCalls) before = some between :=
            yields_sequence argFaithful regular
          constructor
          · rintro ⟨values, _, argsLowered, rfl, rfl⟩
            obtain ⟨lowered, recorded⟩ := argsYield.mp argsLowered
            exact ⟨⟨values, lowered, rfl⟩, recorded⟩
          · rintro ⟨⟨values, lowered, rfl⟩, recorded⟩
            exact ⟨values, _, argsYield.mpr ⟨lowered, recorded⟩, rfl, rfl⟩

section Failure

variable
  (checked : ∀ {item found}, scope.items.get? item = some found → found.entity.check = .ok ())

include checked

/-- The rule for search calls refuses a call only for a reason of planning. -/
theorem failsOnlyBy_lowerCall
    (e : Expr)
    (operands : List (Lowering RelExpr)) :
    FailsOnlyBy Error.IsPlan (Search.lowerCall scope e operands) := by
  unfold Search.lowerCall
  split
  · exact .pure _
  · rename_i item _ _
    refine .bind .searches fun recorded => ?_
    split
    · exact .throw ⟨_, rfl⟩
    · refine .ofExcept_bind (Error.failsOnlyBy_mapError_plan _) fun found inScope => ?_
      have passed := checked (item_mapError_eq_ok.mp inScope)
      refine .ofExcept_bind (Search.failsOnlyBy_keyAndIndex passed) fun _ _ => ?_
      exact .bind .nextId fun _ => .bind (.record _) fun _ => .pure _

/-- Lowering fails only for a reason of planning. -/
theorem failsOnlyBy_lower
    (e : Expr) :
    FailsOnlyBy Error.IsPlan (e.lower [Search.lowerCall] scope) := by
  have offer : ∀ {e operands default}, FailsOnlyBy Error.IsPlan default →
      FailsOnlyBy Error.IsPlan
        (LoweringRule.offer scope e operands default [Search.lowerCall]) := by
    intro e operands default defaultFails
    refine .bind (failsOnlyBy_lowerCall checked e operands) fun claimed? => ?_
    cases claimed? with
    | some claimed => exact .pure _
    | none => exact defaultFails
  induction e with
  | item name =>
      exact offer (.throw ⟨_, rfl⟩)
  | member item property =>
      exact offer (.bind (.ofExcept (Error.failsOnlyBy_mapError_plan _)) fun _ => .pure _)
  | literal value =>
      exact offer (.pure _)
  | parameter name =>
      exact offer (.pure _)
  | compare left op right leftFails rightFails =>
      exact offer (.bind leftFails fun _ => .bind rightFails fun _ => .pure _)
  | and left right leftFails rightFails =>
      exact offer (.bind leftFails fun _ => .bind rightFails fun _ => .pure _)
  | or left right leftFails rightFails =>
      exact offer (.bind leftFails fun _ => .bind rightFails fun _ => .pure _)
  | not operand operandFails =>
      exact offer (.bind operandFails fun _ => .pure _)
  | call function args argFails =>
      rw [Expr.lower, Expr.lowerAll_eq_map]
      refine offer (.bind (.sequence ?_) fun _ => .pure _)
      simpa using argFails

end Failure

end Lowering

end FullTextQuery
