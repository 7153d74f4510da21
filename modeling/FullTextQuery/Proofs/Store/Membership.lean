import FullTextQuery.Plan.Run
import FullTextQuery.Proofs.Store.Evaluation
import Mathlib.Data.Int.Order.Basic

namespace FullTextQuery

/-!
# Membership tests of stored keys

A column converts what it stores, and a membership test converts both its
operand and the elements it looks for.  For a key of the declared kind the
conversions cancel out: the test is true exactly if the stored key is one of
the values that were found.
-/

/-- Whether a cell is a value of a kind; null is one of every kind, and an integer is a real. -/
def ScalarKind.holds : ScalarKind → Store.Cell → Bool
  | _, .null => true
  | .integer, .integer _ => true
  | .real, .integer _ => true
  | .real, .real _ => true
  | .text, .text _ => true
  | _, _ => false

namespace Store

/-- Whether every row of a table is as the columns of the table store it. -/
def Table.Stored
    [NumeralReading]
    (table : Table) :
    Prop :=
  ∀ row ∈ table.rows, ∃ given, row = storedRow table.columns given

/-- Only the same characters are in no order. -/
theorem compareChars_eq_eq_iff
    {s t : List Char} :
    compareChars s t = .eq ↔ s = t := by
  induction s generalizing t with
  | nil => cases t <;> simp [compareChars]
  | cons a s inductionHypothesis =>
      cases t with
      | nil => simp [compareChars]
      | cons b t =>
          rw [compareChars, List.cons.injEq, ← Char.toNat_inj, ← inductionHypothesis]
          cases decided : Ord.compare a.toNat b.toNat with
          | eq => simp [Nat.compare_eq_eq.mp decided]
          | lt => simp [Nat.ne_of_lt (Nat.compare_eq_lt.mp decided)]
          | gt => simp [Nat.ne_of_gt (Nat.compare_eq_gt.mp decided)]

/-- A column for numbers stores no text that looks like a number. -/
theorem wholeNumber?_of_store
    [NumeralReading]
    {affinity : Affinity}
    {given : Cell}
    {s : String}
    (numeric : affinity.isNumeric = true)
    (stored : affinity.store given = .text s) :
    wholeNumber? s.toList = none := by
  have ofInteger : ∀ cell : Cell, cell.realToInteger = .text s → cell = .text s := by
    intro cell
    cases cell with
    | real x => cases exact : exactInteger? x <;> simp [Cell.realToInteger, exact]
    | _ => exact id
  have ofReal : ∀ cell : Cell, cell.integerToReal = .text s → cell = .text s := by
    intro cell
    cases cell with
    | integer n => simp [Cell.integerToReal]
    | _ => exact id
  have ofText : given.textToNumber = .text s → wholeNumber? s.toList = none := by
    intro isText
    cases given with
    | text t =>
        cases isNumber : wholeNumber? t.toList with
        | none =>
            obtain rfl : t = s := by simpa [Cell.textToNumber, isNumber] using isText
            exact isNumber
        | some n =>
            simp only [Cell.textToNumber, isNumber, TextNumber.cell] at isText
            split at isText <;> cases isText
    | _ => cases isText
  cases affinity with
  | integer => exact ofText (ofInteger _ stored)
  | real => exact ofText (ofInteger _ (ofReal _ stored))
  | text => cases numeric
  | none => cases numeric

namespace Cell

/-- Two integers are equal as cells exactly if they are the same. -/
theorem equal?_integer
    (m n : Int64) :
    equal? (.integer m) (.integer n) = some (decide (m = n)) := by
  have same : (Ord.compare m.toInt n.toInt == .eq) = decide (m = n) := by
    rw [Bool.eq_iff_iff, beq_iff_eq, decide_eq_true_iff, Int.compare_eq_eq, Int64.toInt_inj]
  exact congrArg some same

/-- Two texts are equal as cells exactly if they are the same. -/
theorem equal?_text
    (s t : String) :
    equal? (.text s) (.text t) = some (decide (s = t)) := by
  have same : (compareChars s.toList t.toList == .eq) = decide (s = t) := by
    rw [Bool.eq_iff_iff, beq_iff_eq, decide_eq_true_iff, compareChars_eq_eq_iff,
      String.toList_inj]
  exact congrArg some same

end Cell

end Store

namespace Value

/-- Whether a key is one of some values: unknown of a null key, unless there is no value. -/
def foundAmong
    (found : List Value)
    (key : Store.Cell) :
    Option Bool :=
  if found.isEmpty then some false
  else if key = .null then none
  else some (decide (key ∈ found.map Store.Cell.ofValue))

@[simp] theorem foundAmong_nil
    (key : Store.Cell) :
    foundAmong [] key = some false :=
  rfl

/-- Only which values there are matters, and neither their order nor their repetition. -/
theorem foundAmong_congr
    {found others : List Value}
    (same : ∀ value, value ∈ others ↔ value ∈ found)
    (key : Store.Cell) :
    foundAmong others key = foundAmong found key := by
  have sameEmpty : others.isEmpty = found.isEmpty := by
    rw [Bool.eq_iff_iff, List.isEmpty_iff, List.isEmpty_iff, List.eq_nil_iff_forall_not_mem,
      List.eq_nil_iff_forall_not_mem]
    exact forall_congr' fun value => not_congr (same value)
  have sameCells : key ∈ others.map Store.Cell.ofValue ↔ key ∈ found.map Store.Cell.ofValue := by
    simp only [List.mem_map, same]
  simp only [foundAmong, sameEmpty, sameCells]

/-- A key that is not null is among some values or not. -/
theorem foundAmong_eq_some
    (found : List Value)
    {key : Store.Cell}
    (notNull : key ≠ .null) :
    foundAmong found key = some (decide (key ∈ found.map Store.Cell.ofValue)) := by
  cases found with
  | nil => simp
  | cons => simp [foundAmong, notNull]

end Value

namespace Store

/-- What a membership test does to its operand, which is a column, and to its elements. -/
def Conversion.ofTest
    (affinity : Affinity) :
    Conversion :=
  .ofOperands (some affinity) (some .none)

/-- Only a column for numbers converts the operand of a membership test. -/
theorem Conversion.ofTest_eq
    (affinity : Affinity) :
    ofTest affinity = if affinity.isNumeric then .toNumber else .nothing := by
  cases affinity <;> rfl

variable {affinity : Affinity} {kind : ScalarKind} {cell : Cell}

variable [NumeralReading]

/-- A membership test leaves what is stored as it is. -/
theorem convert_stored
    (stored : ∃ given, cell = affinity.store given) :
    (Conversion.ofTest affinity).convert cell = cell := by
  obtain ⟨given, stored⟩ := stored
  rw [Conversion.ofTest_eq]
  split
  · rename_i numeric
    cases cell with
    | text s =>
        simp [Conversion.convert, Cell.textToNumber, wholeNumber?_of_store numeric stored.symm]
    | _ => rfl
  · rfl

/-- A number that a text spells is no text. -/
theorem equal?_text_number
    (s : String)
    (n : TextNumber) :
    Cell.equal? (.text s) n.cell = some false := by
  unfold TextNumber.cell
  dsimp only
  split <;> rfl

/-- A membership test compares a stored key with a value of its kind as they are. -/
theorem equal?_convert
    (isKeyKind : kind ≠ .real)
    (holds : kind.holds cell = true)
    (stored : ∃ given, cell = affinity.store given)
    (notNull : cell ≠ .null)
    {value : Value}
    (ofKind : value.kind? = some kind) :
    cell.equal? ((Conversion.ofTest affinity).convert (Cell.ofValue value)) =
      some (decide (cell = Cell.ofValue value)) := by
  cases value with
  | null => cases ofKind
  | real x =>
      obtain rfl := Option.some.inj ofKind
      exact absurd rfl isKeyKind
  | integer n =>
      obtain rfl := Option.some.inj ofKind
      have unchanged : (Conversion.ofTest affinity).convert (.integer n) = .integer n := by
        cases affinity <;> rfl
      rw [Cell.ofValue, unchanged]
      cases cell with
      | integer m => simp [Cell.equal?_integer]
      | null => exact absurd rfl notNull
      | _ => cases holds
  | text t =>
      obtain rfl := Option.some.inj ofKind
      cases cell with
      | null => exact absurd rfl notNull
      | text s =>
          rw [Cell.ofValue, Conversion.ofTest_eq]
          split
          · rename_i numeric
            obtain ⟨given, stored⟩ := stored
            have noNumber := wholeNumber?_of_store numeric stored.symm
            cases isNumber : wholeNumber? t.toList with
            | none => simp [Conversion.convert, Cell.textToNumber, isNumber, Cell.equal?_text]
            | some n =>
                have differs : s ≠ t := by
                  rintro rfl
                  rw [noNumber] at isNumber
                  cases isNumber
                simp [Conversion.convert, Cell.textToNumber, isNumber, equal?_text_number, differs]
          · simp [Conversion.convert, Cell.equal?_text]
      | _ => cases holds

/-- A value of a key's kind is not null for a membership test. -/
theorem convert_ne_null
    (isKeyKind : kind ≠ .real)
    {value : Value}
    (ofKind : value.kind? = some kind) :
    (Conversion.ofTest affinity).convert (Cell.ofValue value) ≠ .null := by
  rw [Conversion.ofTest_eq]
  cases value with
  | null => cases ofKind
  | real x =>
      obtain rfl := Option.some.inj ofKind
      exact absurd rfl isKeyKind
  | integer n =>
      cases affinity.isNumeric <;> simp [Conversion.convert, Cell.ofValue, Cell.textToNumber]
  | text t =>
      cases affinity.isNumeric with
      | false => simp [Conversion.convert, Cell.ofValue]
      | true =>
          cases isNumber : wholeNumber? t.toList with
          | none => simp [Conversion.convert, Cell.ofValue, Cell.textToNumber, isNumber]
          | some n =>
              simp only [↓reduceIte, Conversion.convert, Cell.ofValue, Cell.textToNumber, isNumber,
                TextNumber.cell]
              split <;> simp

/-- A membership test of a stored key is true exactly if the key is one of the values found. -/
theorem tested_eq_foundAmong
    {found : List Value}
    (isKeyKind : kind ≠ .real)
    (ofKind : ∀ value ∈ found, value.kind? = some kind)
    (holds : kind.holds cell = true)
    (stored : ∃ given, cell = affinity.store given) :
    Cell.tested (some affinity) cell (found.map Cell.ofValue) =
      Cell.ofTruth (Value.foundAmong found cell) := by
  have unchanged := convert_stored stored
  refine congrArg Cell.ofTruth ?_
  change Scalar.memberOf ((Conversion.ofTest affinity).convert cell)
    ((found.map Cell.ofValue).map (Conversion.ofTest affinity).convert) = _
  rw [unchanged]
  unfold Scalar.memberOf Value.foundAmong
  by_cases isNull : cell = .null
  · simp [isNull]
  · have noNull : ((found.map Cell.ofValue).map (Conversion.ofTest affinity).convert).contains
        .null = false := by
      simp only [List.contains_eq_any_beq, List.any_map, List.any_eq_false, Function.comp_apply]
      intro value isFound same
      exact convert_ne_null isKeyKind (ofKind value isFound) (beq_iff_eq.mp same).symm
    have someEqual : ((found.map Cell.ofValue).map (Conversion.ofTest affinity).convert).any
        (fun element => cell.equal? element = some true) =
          decide (cell ∈ found.map Cell.ofValue) := by
      rw [Bool.eq_iff_iff, List.any_map, List.any_map, List.any_eq_true, decide_eq_true_iff,
        List.mem_map]
      refine exists_congr fun value => and_congr_right fun isFound => ?_
      simp only [Function.comp_apply, equal?_convert isKeyKind holds stored isNull
        (ofKind value isFound), Option.some.injEq, decide_eq_true_eq]
      exact eq_comm
    rw [noNull, someEqual]
    cases decide (cell ∈ found.map Cell.ofValue) <;> simp [isNull]

end Store

end FullTextQuery
