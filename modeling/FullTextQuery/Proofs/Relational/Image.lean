import FullTextQuery.Proofs.Query.Scope
import FullTextQuery.Proofs.Relational.Lowering
import FullTextQuery.Proofs.Relational.Resolution

namespace FullTextQuery

/-!
# Images of expressions

What a query's expressions become in its statement, by recursion on the
expression and without a pass between.  Lowering and resolution together make
this image and nothing else.
-/

namespace Expr

mutual

/--
The relational image over a model: the column of a member under its item's
alias, and for a search call the membership test of the single key of its item.
-/
def image?
    (model : Model)
    (query : Query) :
    Expr → Option RelExpr
  | .item _ => none
  | .member source property => do
      let entity ← query.entityOf? model source
      let declared ← entity.property? property
      return .column source declared.column
  | .literal value => some (.literal value)
  | .parameter name => some (.parameter name)
  | .compare left op right => do
      return .compare (← image? model query left) op (← image? model query right)
  | .and left right => do return .and (← image? model query left) (← image? model query right)
  | .or left right => do return .or (← image? model query left) (← image? model query right)
  | .not operand => do return .not (← image? model query operand)
  | .call function args =>
      match (Expr.call function args).searchCall? with
      | some (source, _) => do
          let entity ← query.entityOf? model source
          let (key, _) ← entity.searchable?
          return .membership (.column source key.column) (Search.keyParameter 1) 1
      | none =>
          if isKnownFunction function args.length then do
            return .function function (← imageAll? model query args)
          else
            none

/-- The images of arguments. -/
def imageAll?
    (model : Model)
    (query : Query) :
    List Expr → Option (List RelExpr)
  | [] => some []
  | arg :: args => do
      return (← image? model query arg) :: (← imageAll? model query args)

end

/-- Arguments have images exactly if every single one has. -/
theorem imageAll?_eq_some
    {model : Model}
    {query : Query}
    {args : List Expr}
    {results : List RelExpr} :
    imageAll? model query args = some results ↔
      List.Forall₂ (fun arg result => arg.image? model query = some result) args results := by
  induction args generalizing results with
  | nil =>
      simp [imageAll?, eq_comm]
  | cons arg args inductionHypothesis =>
      cases results with
      | nil => simp [imageAll?, Option.bind_eq_some_iff]
      | cons result results =>
          simp [imageAll?, Option.bind_eq_some_iff, inductionHypothesis]

end Expr

namespace Expr

variable
  {model : Model}
  {query : Query}
  (known : ∀ source ∈ query.sources, (model.entity? source.entity).isSome)

include known

/-- An image is what resolution makes of the lowered form. -/
def Composed
    (model : Model)
    (query : Query)
    (e : Expr) :
    Prop :=
  ∀ {result}, e.image? model query = some result ↔
    ∃ middle, e.lowered? (Scope.declared model query) = some middle ∧
      middle.resolved? (Scope.declared model query) = some result

omit known in
/-- A node over two operands goes through both passes as its operands do. -/
theorem Composed.both
    {left right : Expr}
    {combine : RelExpr → RelExpr → RelExpr}
    {result : RelExpr}
    (resolved : ∀ l r, (combine l r).resolved? (Scope.declared model query) = do
      return combine
        (← l.resolved? (Scope.declared model query))
        (← r.resolved? (Scope.declared model query)))
    (leftComposed : Composed model query left)
    (rightComposed : Composed model query right) :
    (do return combine (← left.image? model query) (← right.image? model query)) = some result ↔
      ∃ middle,
        (do
          return combine
            (← left.lowered? (Scope.declared model query))
            (← right.lowered? (Scope.declared model query))) = some middle ∧
        middle.resolved? (Scope.declared model query) = some result := by
  unfold Composed at leftComposed rightComposed
  simp only [Option.bind_eq_bind, Option.bind_eq_some_iff, Option.pure_def, Option.some.injEq,
    leftComposed, rightComposed]
  constructor
  · rintro ⟨l, ⟨lowL, leftLowered, leftResolved⟩, r, ⟨lowR, rightLowered, rightResolved⟩, rfl⟩
    exact ⟨_, ⟨lowL, leftLowered, lowR, rightLowered, rfl⟩,
      by simp [resolved, leftResolved, rightResolved]⟩
  · rintro ⟨_, ⟨lowL, leftLowered, lowR, rightLowered, rfl⟩, bothResolved⟩
    simp only [resolved, Option.bind_eq_bind, Option.bind_eq_some_iff, Option.pure_def,
      Option.some.injEq] at bothResolved
    obtain ⟨l, leftResolved, r, rightResolved, rfl⟩ := bothResolved
    exact ⟨l, ⟨lowL, leftLowered, leftResolved⟩, r, ⟨lowR, rightLowered, rightResolved⟩, rfl⟩

/-- The image of an expression is what both passes make of it. -/
theorem composed
    (e : Expr) :
    Composed model query e := by
  intro result
  induction e generalizing result with
  | item name =>
      simp [image?, lowered?]
  | member source property =>
      simp only [image?, lowered?, Scope.get?_declared known]
      cases ranges : query.entityOf? model source with
      | none => simp
      | some entity =>
          simp [RelExpr.resolved?, Scope.get?_declared known, ranges, Option.bind_eq_some_iff]
  | literal value =>
      simp [image?, lowered?, RelExpr.resolved?]
  | parameter name =>
      simp [image?, lowered?, RelExpr.resolved?]
  | compare left op right leftComposed rightComposed =>
      exact Composed.both (fun _ _ => rfl) leftComposed rightComposed
  | and left right leftComposed rightComposed =>
      exact Composed.both (fun _ _ => rfl) leftComposed rightComposed
  | or left right leftComposed rightComposed =>
      exact Composed.both (fun _ _ => rfl) leftComposed rightComposed
  | not operand operandComposed =>
      simp only [image?, lowered?, Option.bind_eq_bind, Option.bind_eq_some_iff, Option.pure_def,
        Option.some.injEq, operandComposed]
      constructor
      · rintro ⟨o, ⟨low, lowered, resolved⟩, rfl⟩
        exact ⟨_, ⟨low, lowered, rfl⟩, by simp [RelExpr.resolved?, resolved]⟩
      · rintro ⟨_, ⟨low, lowered, rfl⟩, resolved⟩
        simp only [RelExpr.resolved?, Option.bind_eq_bind, Option.bind_eq_some_iff,
          Option.pure_def, Option.some.injEq] at resolved
        obtain ⟨o, resolved, rfl⟩ := resolved
        exact ⟨o, ⟨low, lowered, resolved⟩, rfl⟩
  | call function args argComposed =>
      simp only [image?, lowered?]
      cases (Expr.call function args).searchCall? with
      | some searched =>
          obtain ⟨source, phrase⟩ := searched
          simp only [Scope.get?_declared known]
          cases ranges : query.entityOf? model source with
          | none => simp
          | some entity =>
              cases searchable : entity.searchable? with
              | none => simp [searchable]
              | some found =>
                  simp [RelExpr.resolved?, Scope.get?_declared known, ranges, searchable,
                    (Entity.searchable?_eq_some.mp searchable).2.1]
      | none =>
          simp only [Option.bind_eq_bind, Option.bind_eq_some_iff, Option.pure_def,
            Option.some.injEq, loweredAll?_eq_some]
          constructor
          · intro imaged
            split at imaged
            · rename_i isKnown
              simp only [Option.bind_eq_some_iff, Option.some.injEq, imageAll?_eq_some,
                List.forall₂_congr_of_mem fun arg member _ => argComposed arg member] at imaged
              obtain ⟨results, related, rfl⟩ := imaged
              obtain ⟨middles, lowered, resolved⟩ := List.forall₂_comp.mpr related
              refine ⟨_, ⟨middles, lowered, rfl⟩, ?_⟩
              simp [RelExpr.resolved?, ← lowered.length_eq, isKnown,
                RelExpr.resolvedAll?_eq_some.mpr resolved]
            · simp at imaged
          · rintro ⟨_, ⟨middles, lowered, rfl⟩, resolved⟩
            simp only [RelExpr.resolved?, ← lowered.length_eq] at resolved
            split at resolved
            · rename_i isKnown
              simp only [Option.bind_eq_bind, Option.bind_eq_some_iff, Option.pure_def,
                Option.some.injEq, RelExpr.resolvedAll?_eq_some] at resolved
              obtain ⟨results, resolved, rfl⟩ := resolved
              rw [if_pos isKnown]
              simp only [Option.bind_eq_some_iff, Option.some.injEq, imageAll?_eq_some,
                List.forall₂_congr_of_mem fun arg member _ => argComposed arg member]
              exact ⟨results, List.forall₂_comp.mp ⟨middles, lowered, resolved⟩, rfl⟩
            · simp at resolved

end Expr

end FullTextQuery
