import FullTextQuery.Proofs.Meaning.Scalars
import FullTextQuery.Proofs.Query.Replacement
import FullTextQuery.Proofs.Sql.AlikeExpressions

namespace FullTextQuery

/-!
# Images with a parameter fixed

To fix a parameter is to write its value as a literal in its place.  An image with a parameter
fixed comes to the same, with the value bound, as the image with the parameter.  Where null
would stand on the right of an equality it does not, since there a literal asks for null;
and a conjunction with the literal zero is false before its names are looked for.
-/

/-- One parameter replaced by a literal, also as the text of a search call. -/
def Replacement.fix
    (name : String)
    (value : Value) :
    Replacement where
  value? := fun other => if other = name then some value else none
  phrase := fun phrase =>
    match phrase, value with
    | .parameter other, .text text => if other = name then .literal text else .parameter other
    | phrase, _ => phrase

namespace RelExpr

variable [NumeralReading]

/-- Two expressions of which the second has a literal in the place of a parameter. -/
structure Fixed
    (name : String)
    (value : Value)
    (lenient : Prop)
    (e other : RelExpr) :
    Prop where
  uses : other.uses = e.uses.filter (· ≠ ⟨name, .caller⟩)
  nulFree : other.NulFree ↔ e.NulFree
  alike : ∀ {bindings otherBindings : Store.Bindings},
    (⟨name, .caller⟩ ∈ e.uses → bindings.cell name = Store.Cell.ofValue value) →
    (∀ n, n ≠ name → otherBindings.cell n = bindings.cell n) →
    (∀ valueSet, otherBindings.cells valueSet = bindings.cells valueSet) →
    e.Alike lenient bindings otherBindings other
  never : (e = .parameter name → value ≠ .integer 0) → NeverAlike lenient e other
  place : ¬lenient → (e = .parameter name → ∀ n, value ≠ .integer n) → PlaceAlike e other

namespace Fixed

variable {name : String} {value : Value} {lenient : Prop}
  {left otherLeft right otherRight operand otherOperand : RelExpr}

/-- An expression that does not use the parameter stays as it is. -/
theorem unused
    {e : RelExpr}
    (notUsed : ⟨name, .caller⟩ ∉ e.uses)
    (alike : ∀ {bindings otherBindings : Store.Bindings},
      (∀ n, n ≠ name → otherBindings.cell n = bindings.cell n) →
      (∀ valueSet, otherBindings.cells valueSet = bindings.cells valueSet) →
      e.Alike lenient bindings otherBindings e) :
    e.Fixed name value lenient e where
  uses := by
    symm
    rw [List.filter_eq_self]
    intro use isUse
    simpa using fun same : use = ⟨name, .caller⟩ => notUsed (same ▸ isUse)
  nulFree := .rfl
  alike := fun _ => alike
  never := fun _ => neverAlike_refl e
  place := fun _ _ => placeAlike_refl e

/-- A literal in the place of the parameter itself. -/
theorem parameter
    (name : String)
    (notReal : ∀ x, value ≠ .real x)
    (nulFree : (RelExpr.literal value).NulFree) :
    (RelExpr.parameter name).Fixed name value lenient (.literal value) := by
  have reads : (RelExpr.literal value).grouped? = some (.literal value) := by
    cases value with
    | real x => exact absurd rfl (notReal x)
    | _ => rfl
  refine ⟨by simp [RelExpr.uses], ?_, ?_, ?_, ?_⟩
  · exact iff_of_true nulFree (by simp [NulFree, nulFreePart])
  · intro bindings otherBindings isCell _ _
    exact .parameter_literal (isCell (by simp [RelExpr.uses])) notReal
  · rintro notZero _ _ otherTerm isOther never
    obtain rfl := Option.some.inj (reads.symm.trans isOther)
    exact absurd (by simpa [Sql.Term.isNever] using never) (notZero rfl)
  · rintro _ notInteger term isTerm otherTerm isOther
    obtain rfl := Option.some.inj (reads.symm.trans isOther)
    rw [(ordinary_parameter name term isTerm).2]
    cases value with
    | integer n => exact absurd rfl (notInteger rfl n)
    | _ => rfl

/-- Ordinary expressions need only come to the same. -/
theorem ofAlike
    {e other : RelExpr}
    (uses : other.uses = e.uses.filter (· ≠ ⟨name, .caller⟩))
    (nulFree : other.NulFree ↔ e.NulFree)
    (ordinary : e.Ordinary)
    (otherOrdinary : other.Ordinary)
    (alike : ∀ {bindings otherBindings : Store.Bindings},
      (⟨name, .caller⟩ ∈ e.uses → bindings.cell name = Store.Cell.ofValue value) →
      (∀ n, n ≠ name → otherBindings.cell n = bindings.cell n) →
      (∀ valueSet, otherBindings.cells valueSet = bindings.cells valueSet) →
      e.Alike lenient bindings otherBindings other) :
    e.Fixed name value lenient other where
  uses := uses
  nulFree := nulFree
  alike := alike
  never := fun _ => otherOrdinary.neverAlike
  place := fun _ _ => ordinary.placeAlike otherOrdinary

/-- The operator is the same unless a null literal comes to stand on the right of an equality. -/
theorem compare
    (leftFixed : left.Fixed name value lenient otherLeft)
    {op : Comparison}
    (rightFixed : right.Fixed name value lenient otherRight)
    (sameOperator : Sql.operatorOf op otherRight = Sql.operatorOf op right) :
    (RelExpr.compare left op right).Fixed name value lenient
      (.compare otherLeft op otherRight) := by
  refine ofAlike ?_ ?_ (ordinary_compare _ _ _) (ordinary_compare _ _ _) ?_
  · rw [RelExpr.uses, RelExpr.uses, leftFixed.uses, rightFixed.uses, List.filter_append]
  · rw [NulFree, NulFree, every_compare, every_compare]
    exact and_congr .rfl (and_congr leftFixed.nulFree rightFixed.nulFree)
  · intro _ _ isCell sameCell sameCells
    exact .compare sameCells
      (leftFixed.alike (fun used => isCell (List.mem_append_left _ used)) sameCell sameCells)
      (rightFixed.alike (fun used => isCell (List.mem_append_right _ used)) sameCell sameCells)
      sameOperator

/-- A conjunction is taken leniently if the parameter joined in it is fixed to zero. -/
theorem and
    (leftFixed : left.Fixed name value lenient otherLeft)
    (rightFixed : right.Fixed name value lenient otherRight)
    (zero : value = .integer 0 → left = .parameter name ∨ right = .parameter name → lenient) :
    (RelExpr.and left right).Fixed name value lenient (.and otherLeft otherRight) := by
  have leftNever : NeverAlike lenient left otherLeft := by
    by_cases isLenient : lenient
    · exact fun _ _ _ _ _ => .inr isLenient
    · exact leftFixed.never fun bare isZero => isLenient (zero isZero (.inl bare))
  have rightNever : NeverAlike lenient right otherRight := by
    by_cases isLenient : lenient
    · exact fun _ _ _ _ _ => .inr isLenient
    · exact rightFixed.never fun bare isZero => isLenient (zero isZero (.inr bare))
  have alike : ∀ {bindings otherBindings : Store.Bindings},
      (⟨name, .caller⟩ ∈ (RelExpr.and left right).uses →
        bindings.cell name = Store.Cell.ofValue value) →
      (∀ n, n ≠ name → otherBindings.cell n = bindings.cell n) →
      (∀ valueSet, otherBindings.cells valueSet = bindings.cells valueSet) →
      (RelExpr.and left right).Alike lenient bindings otherBindings
        (.and otherLeft otherRight) := fun isCell sameCell sameCells =>
    .and sameCells
      (leftFixed.alike (fun used => isCell (List.mem_append_left _ used)) sameCell sameCells)
      (rightFixed.alike (fun used => isCell (List.mem_append_right _ used)) sameCell sameCells)
      leftNever rightNever
  -- What is false in any case does not depend on what is bound, so the value alone will do.
  let bound : Store.Bindings := NameMap.empty.insert name (.single value)
  have isCell : bound.cell name = Store.Cell.ofValue value := by
    rw [Store.Bindings.cell, NameMap.get?_insert, if_pos rfl]
  have never : ∀ {free : Prop}, NeverAlike free left otherLeft →
      NeverAlike free right otherRight →
      NeverAlike free (.and left right) (.and otherLeft otherRight) :=
    fun lefts rights => Alike.and_never (fun _ => rfl)
      (leftFixed.alike (fun _ => isCell) (fun _ _ => rfl) fun _ => rfl)
      (rightFixed.alike (fun _ => isCell) (fun _ _ => rfl) fun _ => rfl) lefts rights
  refine ⟨?_, ?_, alike, fun _ => never leftNever rightNever, ?_⟩
  · rw [RelExpr.uses, RelExpr.uses, leftFixed.uses, rightFixed.uses, List.filter_append]
  · rw [NulFree, NulFree, every_and, every_and]
    exact and_congr .rfl (and_congr leftFixed.nulFree rightFixed.nulFree)
  · intro strict _
    have same : (RelExpr.and left right).Alike lenient bound bound (.and otherLeft otherRight) :=
      alike (fun _ => isCell) (fun _ _ => rfl) fun _ => rfl
    refine same.and_place (fun _ => rfl) (never ?_ ?_)
    · exact fun term isTerm other isOther isNever =>
        .inl ((leftNever term isTerm other isOther isNever).resolve_right strict)
    · exact fun term isTerm other isOther isNever =>
        .inl ((rightNever term isTerm other isOther isNever).resolve_right strict)

/-- A parameter is fixed on both sides of a disjunction. -/
theorem or
    (leftFixed : left.Fixed name value lenient otherLeft)
    (rightFixed : right.Fixed name value lenient otherRight) :
    (RelExpr.or left right).Fixed name value lenient (.or otherLeft otherRight) := by
  refine ofAlike ?_ ?_ (ordinary_or _ _) (ordinary_or _ _) ?_
  · rw [RelExpr.uses, RelExpr.uses, leftFixed.uses, rightFixed.uses, List.filter_append]
  · rw [NulFree, NulFree, every_or, every_or]
    exact and_congr .rfl (and_congr leftFixed.nulFree rightFixed.nulFree)
  · intro _ _ isCell sameCell sameCells
    exact .or sameCells
      (leftFixed.alike (fun used => isCell (List.mem_append_left _ used)) sameCell sameCells)
      (rightFixed.alike (fun used => isCell (List.mem_append_right _ used)) sameCell sameCells)

/-- A parameter is fixed within what is negated. -/
theorem not
    (fixed : operand.Fixed name value lenient otherOperand) :
    (RelExpr.not operand).Fixed name value lenient (.not otherOperand) := by
  refine ofAlike fixed.uses ?_ (ordinary_not _) (ordinary_not _) ?_
  · rw [NulFree, NulFree, every_not, every_not]
    exact and_congr .rfl fixed.nulFree
  · intro _ _ isCell sameCell sameCells
    exact .not sameCells (fixed.alike isCell sameCell sameCells)

/-- A parameter is fixed within the arguments of a function. -/
theorem function
    (function : String)
    {args others : List RelExpr}
    (fixed : List.Forall₂ (Fixed name value lenient) args others) :
    (RelExpr.function function args).Fixed name value lenient (.function function others) := by
  refine ofAlike ?_ ?_ (ordinary_function _ _) (ordinary_function _ _) ?_
  · rw [RelExpr.uses, RelExpr.uses, usesOfAll_eq_flatMap, usesOfAll_eq_flatMap,
      List.filter_flatMap]
    exact (List.flatMap_eq_of_forall₂ (fixed.imp fun _ _ args => args.uses.symm)).symm
  · rw [NulFree, NulFree, every_function, every_function]
    refine and_congr .rfl ?_
    induction fixed with
    | nil => exact .rfl
    | cons first _ inductionHypothesis =>
        rw [List.forall_mem_cons, List.forall_mem_cons]
        exact and_congr first.nulFree inductionHypothesis
  · intro _ _ isCell sameCell sameCells
    refine .function sameCells function (List.forall₂_imp_of_mem ?_ fixed)
    intro arg isArg other _ argFixed
    refine argFixed.alike (fun used => isCell ?_) sameCell sameCells
    rw [RelExpr.uses, usesOfAll_eq_flatMap]
    exact List.mem_flatMap.mpr ⟨arg, isArg, used⟩

end Fixed

end RelExpr

namespace Expr

/-- Whether a literal for a parameter reads in an expression as the value does. -/
structure Fixable
    (name : String)
    (value : Value)
    (lenient : Prop)
    (e : Expr) :
    Prop where
  nulFree : .parameter name ∈ e.nodes → (RelExpr.literal value).NulFree
  null : value = .null → ∀ left op, .compare left op (.parameter name) ∈ e.nodes →
    op ≠ .eq ∧ op ≠ .notEq
  zero : value = .integer 0 → ∀ left right, .and left right ∈ e.nodes →
    left = .parameter name ∨ right = .parameter name → lenient

variable {model : Model} {query : Query} {image : RelExpr} {name : String} {value : Value}
  {lenient : Prop}

/-- Only a parameter has the parameter as its image. -/
theorem eq_parameter_of_image?
    {e : Expr}
    (imaged : e.image? model query = some (.parameter name)) :
    e = .parameter name := by
  cases e with
  | parameter other => simpa [image?] using imaged
  | item other => simp [image?] at imaged
  | member source property => simp [image?, Option.bind_eq_some_iff] at imaged
  | literal other => simp [image?] at imaged
  | compare left op right => simp [image?_compare_eq_some] at imaged
  | and left right => simp [image?_and_eq_some] at imaged
  | or left right => simp [image?_or_eq_some] at imaged
  | not operand => simp [image?_not_eq_some] at imaged
  | call function args =>
      cases isSearch : (Expr.call function args).searchCall? with
      | some searched => simp [image?_search_eq_some isSearch] at imaged
      | none => simp [image?_call_eq_some isSearch] at imaged

/-- What is fixable in an expression is so in its parts. -/
theorem Fixable.of_subset
    {e part : Expr}
    (fixable : e.Fixable name value lenient)
    (isPart : part.nodes ⊆ e.nodes) :
    part.Fixable name value lenient where
  nulFree := fun isNode => fixable.nulFree (isPart isNode)
  null := fun isNull left op isNode => fixable.null isNull left op (isPart isNode)
  zero := fun isZero left right isNode => fixable.zero isZero left right (isPart isNode)

/-- The operator before a literal is that before the parameter, unless null is asked for. -/
theorem Fixable.operatorOf_eq
    {left right : Expr}
    {op : Comparison}
    (fixable : (Expr.compare left op right).Fixable name value lenient)
    {r otherR : RelExpr}
    (imaged : right.image? model query = some r)
    (otherImaged : (right.replace (.fix name value)).image? model query = some otherR) :
    Sql.operatorOf op otherR = Sql.operatorOf op r := by
  rw [operatorOf_image? op imaged, operatorOf_image? op otherImaged]
  by_cases isParameter : right = .parameter name
  · subst isParameter
    have isLiteral : (Expr.parameter name).replace (.fix name value) = .literal value := by
      simp [replace, Replacement.parameter, Replacement.fix]
    rw [isLiteral]
    by_cases isNull : value = .null
    · obtain ⟨notEq, notNotEq⟩ := fixable.null isNull left op (mem_nodes_self _)
      cases op <;> first | rfl | contradiction
    · have notNull : Expr.literal value ≠ .literal .null := by simpa using isNull
      cases op <;> unfold operator <;> split <;> simp_all
  · have sameNull : right.replace (.fix name value) = .literal .null ↔ right = .literal .null := by
      cases right with
      | parameter other =>
          have notName : other ≠ name := fun same => isParameter (by rw [same])
          simp [replace, Replacement.parameter, Replacement.fix, notName]
      | call function args =>
          cases isSearch : (Expr.call function args).searchCall? with
          | some searched => simp [replace_of_searchCall? _ isSearch]
          | none => simp [replace_call _ isSearch]
      | _ => simp [replace]
    by_cases isNull : right = .literal .null
    · rw [sameNull.mpr isNull, isNull]
    · have stillNot := sameNull.not.mpr isNull
      cases op <;> unfold operator <;> split <;> simp_all

variable [NumeralReading]

/-- With a parameter fixed, an expression that has an image has one with the parameter fixed. -/
theorem exists_image_fix
    (notReal : ∀ x, value ≠ .real x)
    {e : Expr}
    (fixable : e.Fixable name value lenient)
    (imaged : e.image? model query = some image) :
    ∃ otherImage, (e.replace (.fix name value)).image? model query = some otherImage ∧
      image.Fixed name value lenient otherImage := by
  induction e generalizing image with
  | item other => cases imaged
  | member source property =>
      refine ⟨image, imaged, ?_⟩
      simp only [image?, Option.bind_eq_bind, Option.bind_eq_some_iff, Option.pure_def,
        Option.some.injEq] at imaged
      obtain ⟨_, _, declared, _, rfl⟩ := imaged
      exact .unused (by simp [RelExpr.uses]) fun _ _ => .column source declared.column
  | literal other =>
      obtain rfl := Option.some.inj imaged
      exact ⟨_, rfl, .unused (by simp [RelExpr.uses]) fun _ _ => .literal other⟩
  | parameter other =>
      obtain rfl := Option.some.inj imaged
      by_cases isName : other = name
      · subst isName
        refine ⟨.literal value, by simp [replace, Replacement.parameter, Replacement.fix, image?],
          .parameter other notReal (fixable.nulFree (mem_nodes_self _))⟩
      · refine ⟨.parameter other,
          by simp [replace, Replacement.parameter, Replacement.fix, image?, isName],
          .unused (by simpa [RelExpr.uses] using Ne.symm isName) fun sameCell _ =>
            .parameter (sameCell other isName)⟩
  | compare left op right leftHypothesis rightHypothesis =>
      obtain ⟨l, r, leftImaged, rightImaged, rfl⟩ := image?_compare_eq_some.mp imaged
      obtain ⟨l', otherLeft, lefts⟩ :=
        leftHypothesis (fixable.of_subset (by simp [nodes_compare])) leftImaged
      obtain ⟨r', otherRight, rights⟩ :=
        rightHypothesis (fixable.of_subset (by simp [nodes_compare])) rightImaged
      exact ⟨_, image?_compare_eq_some.mpr ⟨l', r', otherLeft, otherRight, rfl⟩,
        lefts.compare rights (fixable.operatorOf_eq rightImaged otherRight)⟩
  | and left right leftHypothesis rightHypothesis =>
      obtain ⟨l, r, leftImaged, rightImaged, rfl⟩ := image?_and_eq_some.mp imaged
      obtain ⟨l', otherLeft, lefts⟩ :=
        leftHypothesis (fixable.of_subset (by simp [nodes_and])) leftImaged
      obtain ⟨r', otherRight, rights⟩ :=
        rightHypothesis (fixable.of_subset (by simp [nodes_and])) rightImaged
      refine ⟨_, image?_and_eq_some.mpr ⟨l', r', otherLeft, otherRight, rfl⟩,
        lefts.and rights fun isZero bare => fixable.zero isZero left right (mem_nodes_self _) ?_⟩
      exact bare.imp (fun isLeft => eq_parameter_of_image? (isLeft ▸ leftImaged))
        fun isRight => eq_parameter_of_image? (isRight ▸ rightImaged)
  | or left right leftHypothesis rightHypothesis =>
      obtain ⟨l, r, leftImaged, rightImaged, rfl⟩ := image?_or_eq_some.mp imaged
      obtain ⟨l', otherLeft, lefts⟩ :=
        leftHypothesis (fixable.of_subset (by simp [nodes_or])) leftImaged
      obtain ⟨r', otherRight, rights⟩ :=
        rightHypothesis (fixable.of_subset (by simp [nodes_or])) rightImaged
      exact ⟨_, image?_or_eq_some.mpr ⟨l', r', otherLeft, otherRight, rfl⟩, lefts.or rights⟩
  | not operand operandHypothesis =>
      obtain ⟨o, operandImaged, rfl⟩ := image?_not_eq_some.mp imaged
      obtain ⟨o', otherImaged, operands⟩ :=
        operandHypothesis (fixable.of_subset (by simp [nodes_not])) operandImaged
      exact ⟨_, image?_not_eq_some.mpr ⟨o', otherImaged, rfl⟩, operands.not⟩
  | call function args argHypothesis =>
      cases isSearch : (Expr.call function args).searchCall? with
      | some searched =>
          obtain ⟨test, isTest, rfl⟩ := (image?_search_eq_some isSearch).mp imaged
          obtain ⟨source, phrase⟩ := searched
          have stillSearch := searchCall?_replace_of_searchCall? (.fix name value) isSearch
          rw [replace_of_searchCall? _ isSearch] at stillSearch ⊢
          refine ⟨_, (image?_search_eq_some stillSearch).mpr ⟨test, isTest, rfl⟩, ?_⟩
          obtain ⟨column, rfl⟩ := exists_of_keyTest? isTest
          exact .unused (by simp [RelExpr.uses]) fun _ _ => .membership (.column _ column) _ _
      | none =>
          obtain ⟨isKnown, images, areImages, rfl⟩ := (image?_call_eq_some isSearch).mp imaged
          have stillNot := searchCall?_replace_eq_none (.fix name value) isSearch
          rw [replace_call _ isSearch] at stillNot ⊢
          have each : ∀ arg ∈ args, ∀ result, arg.image? model query = some result →
              ∃ other, (arg.replace (.fix name value)).image? model query = some other ∧
                result.Fixed name value lenient other := by
            intro arg isArg result argImaged
            refine argHypothesis arg isArg (fixable.of_subset fun node isNode => ?_) argImaged
            simp only [nodes_call, isSearch, Option.isSome_none, Bool.false_eq_true, ↓reduceIte,
              List.mem_cons, List.mem_flatMap]
            exact .inr ⟨arg, isArg, isNode⟩
          have leads : List.Forall₂ (fun arg other => ∀ result,
              arg.image? model query = some result → ∃ otherResult,
                other.image? model query = some otherResult ∧
                  result.Fixed name value lenient otherResult)
              args (args.map (replace (.fix name value))) := by
            rwa [List.forall₂_map_right_iff, List.forall₂_same]
          obtain ⟨others, areOthers, args⟩ := List.exists_forall₂_square
            (fun leads argImaged => leads _ argImaged) leads areImages
          exact ⟨.function function others, (image?_call_eq_some stillNot).mpr
            ⟨by simpa using isKnown, others, areOthers, rfl⟩, .function function args⟩

end Expr

end FullTextQuery
