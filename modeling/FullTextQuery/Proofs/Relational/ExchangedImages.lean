import FullTextQuery.Proofs.Meaning.Scalars
import FullTextQuery.Proofs.Query.Exchange
import FullTextQuery.Proofs.Sql.AlikeExpressions

namespace FullTextQuery

/-!
# Images with exchanged operands

Where two expressions differ in which operand of some equalities stands first, so do their
images.  They use the same parameters, and if no operand is the literal null or a search,
they come to the same.
-/

namespace RelExpr

variable [NumeralReading]

/-- Two expressions of the same parts that come to the same if some exchange is harmless. -/
structure Exchanged
    (harmless : Prop)
    (e other : RelExpr) :
    Prop where
  uses : other.uses.Perm e.uses
  nulFree : other.NulFree ↔ e.NulFree
  alike : harmless → ∀ {bindings otherBindings : Store.Bindings},
    (∀ name, otherBindings.cell name = bindings.cell name) →
    (∀ valueSet, otherBindings.cells valueSet = bindings.cells valueSet) →
    e.Alike False bindings otherBindings other
  never : harmless → NeverAlike False e other
  place : harmless → PlaceAlike e other

namespace Exchanged

variable {harmless : Prop} {left otherLeft right otherRight operand otherOperand : RelExpr}

/-- Nothing has to be exchanged. -/
theorem refl
    (e : RelExpr) :
    e.Exchanged harmless e where
  uses := .refl _
  nulFree := .rfl
  alike := fun _ _ _ sameCell sameCells => .refl sameCells sameCell e
  never := fun _ => neverAlike_refl e
  place := fun _ => placeAlike_refl e

/-- Ordinary expressions of the same parts need only come to the same. -/
theorem ofAlike
    {e other : RelExpr}
    (uses : other.uses.Perm e.uses)
    (nulFree : other.NulFree ↔ e.NulFree)
    (ordinary : e.Ordinary)
    (otherOrdinary : other.Ordinary)
    (alike : harmless → ∀ {bindings otherBindings : Store.Bindings},
      (∀ name, otherBindings.cell name = bindings.cell name) →
      (∀ valueSet, otherBindings.cells valueSet = bindings.cells valueSet) →
      e.Alike False bindings otherBindings other) :
    e.Exchanged harmless other where
  uses := uses
  nulFree := nulFree
  alike := alike
  never := fun _ => otherOrdinary.neverAlike
  place := fun _ => ordinary.placeAlike otherOrdinary

/-- An equality with its operands exchanged. -/
theorem exchange
    (left right : RelExpr)
    {op : Comparison}
    (isEquality : op.IsEquality)
    (anywhere : harmless → (left ≠ .literal .null ∧ left.tests = []) ∧
      right ≠ .literal .null ∧ right.tests = []) :
    (RelExpr.compare left op right).Exchanged harmless (.compare right op left) := by
  refine ofAlike List.perm_append_comm ?_ (ordinary_compare _ _ _) (ordinary_compare _ _ _) ?_
  · rw [NulFree, NulFree, every_compare, every_compare]
    exact and_congr .rfl and_comm
  · intro isHarmless _ _ sameCell sameCells
    obtain ⟨⟨leftNotNull, noLeftTests⟩, rightNotNull, noRightTests⟩ := anywhere isHarmless
    refine .exchange (.refl sameCells sameCell left) (.refl sameCells sameCell right) ?_ ?_
      ⟨noLeftTests, noRightTests⟩
    · rw [operatorOf_of_ne_null rightNotNull]
      rcases isEquality with rfl | rfl
      · exact .inl rfl
      · exact .inr rfl
    · rw [operatorOf_of_ne_null leftNotNull, operatorOf_of_ne_null rightNotNull]

/-- Operands are exchanged within both sides of a comparison that keeps its operator. -/
theorem compare
    (leftExchanged : left.Exchanged harmless otherLeft)
    (op : Comparison)
    (rightExchanged : right.Exchanged harmless otherRight)
    (sameNull : otherRight = .literal .null ↔ right = .literal .null) :
    (RelExpr.compare left op right).Exchanged harmless (.compare otherLeft op otherRight) := by
  refine ofAlike (leftExchanged.uses.append rightExchanged.uses) ?_ (ordinary_compare _ _ _)
    (ordinary_compare _ _ _) ?_
  · rw [NulFree, NulFree, every_compare, every_compare]
    exact and_congr .rfl (and_congr leftExchanged.nulFree rightExchanged.nulFree)
  · intro isHarmless _ _ sameCell sameCells
    exact .compare sameCells (leftExchanged.alike isHarmless sameCell sameCells)
      (rightExchanged.alike isHarmless sameCell sameCells) (operatorOf_congr sameNull op)

/-- Operands are exchanged within both sides of a conjunction. -/
theorem and
    (leftExchanged : left.Exchanged harmless otherLeft)
    (rightExchanged : right.Exchanged harmless otherRight) :
    (RelExpr.and left right).Exchanged harmless (.and otherLeft otherRight) := by
  have alike : harmless → ∀ {bindings otherBindings : Store.Bindings},
      (∀ name, otherBindings.cell name = bindings.cell name) →
      (∀ valueSet, otherBindings.cells valueSet = bindings.cells valueSet) →
      (RelExpr.and left right).Alike False bindings otherBindings
        (.and otherLeft otherRight) :=
    fun isHarmless _ _ sameCell sameCells =>
      .and sameCells (leftExchanged.alike isHarmless sameCell sameCells)
        (rightExchanged.alike isHarmless sameCell sameCells) (leftExchanged.never isHarmless)
        (rightExchanged.never isHarmless)
  -- What is false in any case does not depend on what is bound, so nothing will do.
  have nothing : ∀ valueSet, Store.Bindings.cells .empty valueSet =
      Store.Bindings.cells .empty valueSet := fun _ => rfl
  have never : harmless → NeverAlike False (.and left right) (.and otherLeft otherRight) :=
    fun isHarmless => Alike.and_never nothing
      (leftExchanged.alike isHarmless (fun _ => rfl) fun _ => rfl)
      (rightExchanged.alike isHarmless (fun _ => rfl) fun _ => rfl)
      (leftExchanged.never isHarmless) (rightExchanged.never isHarmless)
  refine ⟨leftExchanged.uses.append rightExchanged.uses, ?_, alike, never, ?_⟩
  · rw [NulFree, NulFree, every_and, every_and]
    exact and_congr .rfl (and_congr leftExchanged.nulFree rightExchanged.nulFree)
  · exact fun isHarmless => Alike.and_place nothing
      (alike isHarmless (fun _ => rfl) fun _ => rfl) (never isHarmless)

/-- Operands are exchanged within both sides of a disjunction. -/
theorem or
    (leftExchanged : left.Exchanged harmless otherLeft)
    (rightExchanged : right.Exchanged harmless otherRight) :
    (RelExpr.or left right).Exchanged harmless (.or otherLeft otherRight) := by
  refine ofAlike (leftExchanged.uses.append rightExchanged.uses) ?_ (ordinary_or _ _)
    (ordinary_or _ _) ?_
  · rw [NulFree, NulFree, every_or, every_or]
    exact and_congr .rfl (and_congr leftExchanged.nulFree rightExchanged.nulFree)
  · intro isHarmless _ _ sameCell sameCells
    exact .or sameCells (leftExchanged.alike isHarmless sameCell sameCells)
      (rightExchanged.alike isHarmless sameCell sameCells)

/-- Operands are exchanged within what is negated. -/
theorem not
    (exchanged : operand.Exchanged harmless otherOperand) :
    (RelExpr.not operand).Exchanged harmless (.not otherOperand) := by
  refine ofAlike exchanged.uses ?_ (ordinary_not _) (ordinary_not _) ?_
  · rw [NulFree, NulFree, every_not, every_not]
    exact and_congr .rfl exchanged.nulFree
  · intro isHarmless _ _ sameCell sameCells
    exact .not sameCells (exchanged.alike isHarmless sameCell sameCells)

/-- Operands are exchanged within the arguments of a function. -/
theorem function
    (name : String)
    {args others : List RelExpr}
    (exchanged : List.Forall₂ (Exchanged harmless) args others) :
    (RelExpr.function name args).Exchanged harmless (.function name others) := by
  refine ofAlike ?_ ?_ (ordinary_function _ _) (ordinary_function _ _) ?_
  · rw [RelExpr.uses, RelExpr.uses, usesOfAll_eq_flatMap, usesOfAll_eq_flatMap]
    exact List.flatMap_perm_of_forall₂ (exchanged.imp fun _ _ args => args.uses)
  · rw [NulFree, NulFree, every_function, every_function]
    refine and_congr .rfl ?_
    induction exchanged with
    | nil => exact .rfl
    | cons first _ inductionHypothesis =>
        rw [List.forall_mem_cons, List.forall_mem_cons]
        exact and_congr first.nulFree inductionHypothesis
  · intro isHarmless _ _ sameCell sameCells
    exact .function sameCells name
      (exchanged.imp fun _ _ args => args.alike isHarmless sameCell sameCells)

end Exchanged

end RelExpr

namespace Expr

variable {model : Model} {query : Query} {image : RelExpr}

/-- There is a test behind the image of a search call only. -/
theorem tests_of_image?
    {e : Expr}
    (imaged : e.image? model query = some image)
    (notSearch : e.searchCall? = none) :
    image.tests = [] := by
  cases e with
  | item name => cases imaged
  | member source property =>
      simp only [image?, Option.bind_eq_bind, Option.bind_eq_some_iff, Option.pure_def,
        Option.some.injEq] at imaged
      obtain ⟨_, _, _, _, rfl⟩ := imaged
      rfl
  | literal value =>
      obtain rfl := Option.some.inj imaged
      rfl
  | parameter name =>
      obtain rfl := Option.some.inj imaged
      rfl
  | compare left op right =>
      obtain ⟨l, r, _, _, rfl⟩ := image?_compare_eq_some.mp imaged
      rfl
  | and left right =>
      obtain ⟨l, r, _, _, rfl⟩ := image?_and_eq_some.mp imaged
      rfl
  | or left right =>
      obtain ⟨l, r, _, _, rfl⟩ := image?_or_eq_some.mp imaged
      rfl
  | not operand =>
      obtain ⟨o, _, rfl⟩ := image?_not_eq_some.mp imaged
      rfl
  | call function args =>
      obtain ⟨_, images, _, rfl⟩ := (image?_call_eq_some notSearch).mp imaged
      rfl

/-- The image of an expression is a literal exactly if the expression is. -/
theorem image?_eq_literal_iff
    {e : Expr}
    (imaged : e.image? model query = some image)
    (value : Value) :
    image = .literal value ↔ e = .literal value := by
  constructor
  · rintro rfl
    exact eq_literal_of_image? imaged
  · rintro rfl
    exact (Option.some.inj imaged).symm

/-- The image of an operand that may stand anywhere is neither null nor has a test behind it. -/
theorem StandsAnywhere.of_image?
    {e : Expr}
    (anywhere : e.StandsAnywhere)
    (imaged : e.image? model query = some image) :
    image ≠ .literal .null ∧ image.tests = [] :=
  ⟨(image?_eq_literal_iff imaged .null).not.mpr anywhere.1, tests_of_image? imaged anywhere.2⟩

variable [NumeralReading]

/-- With operands exchanged, an expression that has an image has one with operands exchanged. -/
theorem Exchanged.exists_image
    {allowed : Expr → Prop}
    {e other : Expr}
    (exchanged : Exchanged allowed e other)
    (imaged : e.image? model query = some image) :
    ∃ otherImage, other.image? model query = some otherImage ∧
      image.Exchanged (∀ e, allowed e → e.StandsAnywhere) otherImage := by
  induction exchanged generalizing image with
  | refl e => exact ⟨image, imaged, .refl image⟩
  | exchange isEquality leftAllowed rightAllowed =>
      obtain ⟨l, r, leftImaged, rightImaged, rfl⟩ := image?_compare_eq_some.mp imaged
      exact ⟨_, image?_compare_eq_some.mpr ⟨r, l, rightImaged, leftImaged, rfl⟩,
        .exchange l r isEquality fun anywhere =>
          ⟨(anywhere _ leftAllowed).of_image? leftImaged,
            (anywhere _ rightAllowed).of_image? rightImaged⟩⟩
  | @compare left otherLeft right otherRight op _ rightExchanged leftHypothesis
      rightHypothesis =>
      obtain ⟨l, r, leftImaged, rightImaged, rfl⟩ := image?_compare_eq_some.mp imaged
      obtain ⟨l', otherLeftImaged, lefts⟩ := leftHypothesis leftImaged
      obtain ⟨r', otherRightImaged, rights⟩ := rightHypothesis rightImaged
      refine ⟨_, image?_compare_eq_some.mpr ⟨l', r', otherLeftImaged, otherRightImaged, rfl⟩,
        lefts.compare op rights ?_⟩
      rw [image?_eq_literal_iff otherRightImaged, image?_eq_literal_iff rightImaged,
        rightExchanged.literal_iff]
  | and _ _ leftHypothesis rightHypothesis =>
      obtain ⟨l, r, leftImaged, rightImaged, rfl⟩ := image?_and_eq_some.mp imaged
      obtain ⟨l', otherLeftImaged, lefts⟩ := leftHypothesis leftImaged
      obtain ⟨r', otherRightImaged, rights⟩ := rightHypothesis rightImaged
      exact ⟨_, image?_and_eq_some.mpr ⟨l', r', otherLeftImaged, otherRightImaged, rfl⟩,
        lefts.and rights⟩
  | or _ _ leftHypothesis rightHypothesis =>
      obtain ⟨l, r, leftImaged, rightImaged, rfl⟩ := image?_or_eq_some.mp imaged
      obtain ⟨l', otherLeftImaged, lefts⟩ := leftHypothesis leftImaged
      obtain ⟨r', otherRightImaged, rights⟩ := rightHypothesis rightImaged
      exact ⟨_, image?_or_eq_some.mpr ⟨l', r', otherLeftImaged, otherRightImaged, rfl⟩,
        lefts.or rights⟩
  | not _ operandHypothesis =>
      obtain ⟨o, operandImaged, rfl⟩ := image?_not_eq_some.mp imaged
      obtain ⟨o', otherImaged, operands⟩ := operandHypothesis operandImaged
      exact ⟨_, image?_not_eq_some.mpr ⟨o', otherImaged, rfl⟩, operands.not⟩
  | @call function before after arg otherArg exchanged argHypothesis =>
      have whole : Exchanged allowed (.call function (before ++ arg :: after))
          (.call function (before ++ otherArg :: after)) := .call exchanged
      cases isSearch : (Expr.call function (before ++ arg :: after)).searchCall? with
      | some searched =>
          rw [whole.eq_of_searchCall? isSearch]
          exact ⟨image, imaged, .refl image⟩
      | none =>
          obtain ⟨isKnown, images, areImages, rfl⟩ := (image?_call_eq_some isSearch).mp imaged
          have unchanged : ∀ args : List Expr, List.Forall₂ (fun e other => ∀ {image},
              e.image? model query = some image → ∃ otherImage,
                other.image? model query = some otherImage ∧
                  image.Exchanged (∀ e, allowed e → e.StandsAnywhere) otherImage) args args :=
            fun _ => List.forall₂_same.mpr fun _ _ {image} imaged => ⟨image, imaged, .refl image⟩
          obtain ⟨otherImages, areOthers, each⟩ :=
            List.exists_forall₂_square (fun leads imaged => leads imaged)
              (List.rel_append (unchanged before) (.cons argHypothesis (unchanged after)))
              areImages
          exact ⟨.function function otherImages,
            (image?_call_eq_some (whole.searchCall?_eq_none isSearch)).mpr
              ⟨by simpa using isKnown, otherImages, areOthers, rfl⟩,
            .function function each⟩

end Expr

end FullTextQuery
