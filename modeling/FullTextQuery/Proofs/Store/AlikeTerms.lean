import FullTextQuery.Proofs.Store.AlikeSearches

namespace FullTextQuery.Store

/-!
# Terms that come to the same

Two terms, each with what is bound to its parameters, whose names are found alike and whose
expressions stand for the same.  A term in one that is false in any case may be false only
for what is bound in the other: there the one leaves out names that the other looks for, so
the two are taken leniently.
-/

open Sql (Term)

/-- A term that is false in any case is found to be zero, whatever else it names. -/
theorem Scalar.ofTerm_of_isNever
    {sources : List BoundTable}
    {bindings : Bindings}
    {term : Term}
    (never : term.isNever = true) :
    ofTerm sources bindings term = .ok (.constant (.integer 0)) := by
  cases term with
  | literal value =>
      obtain rfl : value = .integer 0 := by simpa [Term.isNever] using never
      rfl
  | and left right => rw [ofTerm, if_pos never]
  | _ => cases never

variable [NumeralReading]

/-- Two terms, each with what is bound to its parameters, that stand for the same. -/
structure AlikeTerms
    (lenient : Prop)
    (bindings otherBindings : Bindings)
    (term other : Term) :
    Prop where
  height : other.height = term.height
  calls : other.callsFunction = term.callsFunction
  never : term.isNever = true → other.isNever = true
  resolved : ∀ sources, Except.Related lenient (Scalar.Alike lenient)
    (Scalar.ofTerm sources bindings term) (Scalar.ofTerm sources otherBindings other)

namespace AlikeTerms

variable {lenient : Prop} {bindings otherBindings : Bindings} {left right other otherLeft
  otherRight operand otherOperand : Term}

/-- A name comes to the same as itself. -/
theorem name
    (column : String) :
    AlikeTerms lenient bindings otherBindings (.name column) (.name column) where
  height := rfl
  calls := rfl
  never := nofun
  resolved := by
    intro sources
    rw [Scalar.ofTerm, Scalar.ofTerm]
    cases findColumn sources.zipIdx column with
    | error e => exact .error
    | ok ref => exact .ok (.refl _)

/-- A qualified column comes to the same as itself. -/
theorem column
    (tableAlias name : String) :
    AlikeTerms lenient bindings otherBindings (.column tableAlias name)
      (.column tableAlias name) where
  height := rfl
  calls := rfl
  never := nofun
  resolved := by
    intro sources
    rw [Scalar.ofTerm, Scalar.ofTerm]
    cases findColumn (sources.zipIdx.filter fun entry =>
        sameName entry.1.tableAlias tableAlias) name with
    | error e => exact .error
    | ok ref => exact .ok (.refl _)

/-- A literal comes to the same as itself. -/
theorem literal
    (value : Value) :
    AlikeTerms lenient bindings otherBindings (.literal value) (.literal value) where
  height := rfl
  calls := rfl
  never := id
  resolved := fun _ => .ok (.refl _)

/-- A parameter comes to the same under bindings that have the same cell for it. -/
theorem parameter
    {name : String}
    (sameCell : otherBindings.cell name = bindings.cell name) :
    AlikeTerms lenient bindings otherBindings (.parameter name) (.parameter name) where
  height := rfl
  calls := rfl
  never := nofun
  resolved := by
    intro sources
    rw [Scalar.ofTerm, Scalar.ofTerm, sameCell]
    exact .ok (.refl _)

/-- A parameter and the literal that is bound to it. -/
theorem parameter_literal
    {name : String}
    {value : Value}
    (isCell : bindings.cell name = Cell.ofValue value) :
    AlikeTerms lenient bindings otherBindings (.parameter name) (.literal value) where
  height := rfl
  calls := rfl
  never := nofun
  resolved := by
    intro sources
    rw [Scalar.ofTerm, Scalar.ofTerm, isCell]
    exact .ok (.refl _)

/-- Comparisons with the same operator come to the same if their sides do. -/
theorem compare
    (leftAlike : AlikeTerms lenient bindings otherBindings left otherLeft)
    (op : Sql.Operator)
    (rightAlike : AlikeTerms lenient bindings otherBindings right otherRight) :
    AlikeTerms lenient bindings otherBindings (.compare left op right)
      (.compare otherLeft op otherRight) where
  height := by rw [Term.height, Term.height, leftAlike.height, rightAlike.height]
  calls := by
    rw [Term.callsFunction, Term.callsFunction, leftAlike.calls, rightAlike.calls]
  never := nofun
  resolved := by
    intro sources
    rw [Scalar.ofTerm, Scalar.ofTerm]
    exact (leftAlike.resolved sources).bind fun _ _ leftSame =>
      (rightAlike.resolved sources).bind fun _ _ rightSame =>
        .ok (leftSame.compare op rightSame)

/-- An equality with its operands exchanged. -/
theorem exchange
    {op : Sql.Operator}
    (isEquality : Scalar.IsEquality op)
    (leftAlike : AlikeTerms lenient bindings otherBindings left otherLeft)
    (rightAlike : AlikeTerms lenient bindings otherBindings right otherRight) :
    AlikeTerms lenient bindings otherBindings (.compare left op right)
      (.compare otherRight op otherLeft) where
  height := by
    rw [Term.height, Term.height, leftAlike.height, rightAlike.height, Nat.max_comm]
  calls := by
    rw [Term.callsFunction, Term.callsFunction, leftAlike.calls, rightAlike.calls,
      Bool.or_right_comm]
  never := nofun
  resolved := by
    intro sources
    have leftResolved := leftAlike.resolved sources
    have rightResolved := rightAlike.resolved sources
    rw [Scalar.ofTerm, Scalar.ofTerm]
    refine ⟨?_, fun isStrict => ?_⟩
    · intro scalar otherScalar resolves otherResolves
      obtain ⟨a, isLeft, resolves⟩ := Except.bind_eq_ok.mp resolves
      obtain ⟨b, isRight, ⟨⟩⟩ := Except.bind_eq_ok.mp resolves
      obtain ⟨d, isOtherRight, otherResolves⟩ := Except.bind_eq_ok.mp otherResolves
      obtain ⟨c, isOtherLeft, ⟨⟩⟩ := Except.bind_eq_ok.mp otherResolves
      exact .exchange isEquality (leftResolved.results isLeft isOtherLeft)
        (rightResolved.results isRight isOtherRight)
    · have lefts := leftResolved.success isStrict
      have rights := rightResolved.success isStrict
      simp only [Except.bind_eq_ok]
      constructor
      · rintro ⟨_, a, isLeft, b, isRight, _⟩
        obtain ⟨c, isOtherLeft⟩ := lefts.mp ⟨a, isLeft⟩
        obtain ⟨d, isOtherRight⟩ := rights.mp ⟨b, isRight⟩
        exact ⟨_, d, isOtherRight, c, isOtherLeft, rfl⟩
      · rintro ⟨_, d, isOtherRight, c, isOtherLeft, _⟩
        obtain ⟨a, isLeft⟩ := lefts.mpr ⟨c, isOtherLeft⟩
        obtain ⟨b, isRight⟩ := rights.mpr ⟨d, isOtherRight⟩
        exact ⟨_, a, isLeft, b, isRight, rfl⟩

/--
A conjunction.  If only one of the two is false in any case, the other looks for names that
this one leaves out.
-/
theorem and
    (leftAlike : AlikeTerms lenient bindings otherBindings left otherLeft)
    (rightAlike : AlikeTerms lenient bindings otherBindings right otherRight)
    (strict : (Term.and otherLeft otherRight).isNever = true →
      (Term.and left right).isNever = true ∨ lenient) :
    AlikeTerms lenient bindings otherBindings (.and left right)
      (.and otherLeft otherRight) := by
  have never : (Term.and left right).isNever = true →
      (Term.and otherLeft otherRight).isNever = true := by
    simp only [Term.isNever, leftAlike.calls, rightAlike.calls, Bool.and_eq_true,
      Bool.or_eq_true]
    rintro ⟨⟨leftNever | rightNever, noLeft⟩, noRight⟩
    · exact ⟨⟨.inl (leftAlike.never leftNever), noLeft⟩, noRight⟩
    · exact ⟨⟨.inr (rightAlike.never rightNever), noLeft⟩, noRight⟩
  refine ⟨?_, ?_, never, ?_⟩
  · rw [Term.height, Term.height, leftAlike.height, rightAlike.height]
  · rw [Term.callsFunction, Term.callsFunction, leftAlike.calls, rightAlike.calls]
  intro sources
  rw [Scalar.ofTerm, Scalar.ofTerm]
  by_cases isNever : (Term.and left right).isNever = true
  · rw [if_pos isNever, if_pos (never isNever)]
    exact .ok (.refl _)
  · rw [if_neg isNever]
    by_cases otherNever : (Term.and otherLeft otherRight).isNever = true
    · have isLenient : lenient := (strict otherNever).resolve_left isNever
      rw [if_pos otherNever]
      refine ⟨?_, fun isStrict => absurd isLenient isStrict⟩
      intro scalar otherScalar resolves otherResolves
      obtain rfl := Except.ok.inj otherResolves
      obtain ⟨a, leftResolves, resolves⟩ := Except.bind_eq_ok.mp resolves
      obtain ⟨b, rightResolves, ⟨⟩⟩ := Except.bind_eq_ok.mp resolves
      refine ⟨rfl, fun row => ?_, fun isStrict => absurd isLenient isStrict,
        fun isStrict => absurd isLenient isStrict⟩
      simp only [Term.isNever, Bool.and_eq_true, Bool.or_eq_true] at otherNever
      rw [Scalar.cell, Scalar.cell]
      rcases otherNever.1.1 with leftNever | rightNever
      · have isZero := ((leftAlike.resolved sources).results leftResolves
          (Scalar.ofTerm_of_isNever leftNever)).cell row
        rw [← isZero]
        rfl
      · have isZero := ((rightAlike.resolved sources).results rightResolves
          (Scalar.ofTerm_of_isNever rightNever)).cell row
        rw [← isZero]
        rcases (a.cell row).truth? with _ | _ | _ <;> rfl
    · rw [if_neg otherNever]
      exact (leftAlike.resolved sources).bind fun _ _ leftSame =>
        (rightAlike.resolved sources).bind fun _ _ rightSame => .ok (leftSame.and rightSame)

/-- Disjunctions come to the same if their sides do. -/
theorem or
    (leftAlike : AlikeTerms lenient bindings otherBindings left otherLeft)
    (rightAlike : AlikeTerms lenient bindings otherBindings right otherRight) :
    AlikeTerms lenient bindings otherBindings (.or left right) (.or otherLeft otherRight) where
  height := by rw [Term.height, Term.height, leftAlike.height, rightAlike.height]
  calls := by
    rw [Term.callsFunction, Term.callsFunction, leftAlike.calls, rightAlike.calls]
  never := nofun
  resolved := by
    intro sources
    rw [Scalar.ofTerm, Scalar.ofTerm]
    exact (leftAlike.resolved sources).bind fun _ _ leftSame =>
      (rightAlike.resolved sources).bind fun _ _ rightSame => .ok (leftSame.or rightSame)

/-- Negations come to the same if what they negate does. -/
theorem not
    (alike : AlikeTerms lenient bindings otherBindings operand otherOperand) :
    AlikeTerms lenient bindings otherBindings (.not operand) (.not otherOperand) where
  height := by rw [Term.height, Term.height, alike.height]
  calls := alike.calls
  never := nofun
  resolved := by
    intro sources
    rw [Scalar.ofTerm, Scalar.ofTerm]
    exact (alike.resolved sources).bind fun _ _ same => .ok same.not

/-- Calls of a function come to the same if their arguments do. -/
theorem call
    (function : String)
    {args others : List Term}
    (alike : List.Forall₂ (AlikeTerms lenient bindings otherBindings) args others) :
    AlikeTerms lenient bindings otherBindings (.call function args) (.call function others) where
  height := by
    rw [Term.height, Term.height, Nat.add_right_cancel_iff]
    induction alike with
    | nil => rfl
    | cons first _ inductionHypothesis =>
        rw [Term.heightOfAll, Term.heightOfAll, first.height, inductionHypothesis]
  calls := rfl
  never := nofun
  resolved := by
    intro sources
    have resolved : Except.Related lenient (List.Forall₂ (Scalar.Alike lenient))
        (Scalar.ofTerms sources bindings args) (Scalar.ofTerms sources otherBindings others) := by
      induction alike with
      | nil => exact .ok .nil
      | cons first _ inductionHypothesis =>
          rw [Scalar.ofTerms, Scalar.ofTerms]
          exact (first.resolved sources).bind fun _ _ here =>
            inductionHypothesis.bind fun _ _ rest => .ok (.cons here rest)
    rw [Scalar.ofTerm, Scalar.ofTerm]
    refine resolved.bind fun scalars otherScalars same => ?_
    cases ScalarFunction.ofName? function with
    | none => exact .error
    | some scalarFunction =>
        cases same with
        | nil => exact .error
        | cons first rest =>
            cases rest with
            | nil => exact .ok (first.apply scalarFunction)
            | cons => exact .error

/-- Membership tests come to the same if their operands do and the value set is the same. -/
theorem inArray
    (alike : AlikeTerms lenient bindings otherBindings operand otherOperand)
    {valueSet : String}
    (sameCells : otherBindings.cells valueSet = bindings.cells valueSet) :
    AlikeTerms lenient bindings otherBindings (.inArray operand valueSet)
      (.inArray otherOperand valueSet) where
  height := by rw [Term.height, Term.height, alike.height]
  calls := alike.calls
  never := nofun
  resolved := by
    intro sources
    rw [Scalar.ofTerm, Scalar.ofTerm, sameCells]
    exact (alike.resolved sources).bind fun _ _ same => .ok (same.inSet _)

end AlikeTerms

end FullTextQuery.Store
