import FullTextQuery.Binary64.Text
import FullTextQuery.Proofs.Binary64.Shortest

namespace FullTextQuery.Binary64

/-!
# Literals of numbers

The literal of a finite number is a minus sign where it is needed and a numeral
with a point or an exponent, which is read as the same number.
-/

/-- The literal of the magnitude of a finite number. -/
def literalMagnitude
    (x : Binary64) :
    List Char :=
  if x.isZero then
    ['0', '.', '0']
  else if -4 ≤ x.shortest.power ∧ x.shortest.power < 16 then
    x.shortest.pointed
  else
    x.shortest.exponential (Decimal.ofInt x.shortest.power).toList

/-- The codes below that of infinity are those of the finite numbers. -/
theorem code_lt_infinityCode_iff
    {x : Binary64} :
    x.code < infinityCode ↔ x.isNaN = false ∧ x.isInfinite = false := by
  simp only [isNaN, isInfinite, decide_eq_false_iff_not, beq_eq_false_iff_ne]
  omega

/-- The literal of a finite number is its sign and the literal of its magnitude. -/
theorem toList_toLiteral
    {x : Binary64}
    (finite : x.code < infinityCode) :
    x.toLiteral.toList = if x.negative then '-' :: x.literalMagnitude else x.literalMagnitude := by
  obtain ⟨isNumber, isBounded⟩ := code_lt_infinityCode_iff.mp finite
  simp only [toLiteral, signed, isNumber, isBounded, Bool.false_eq_true, ↓reduceIte,
    String.toList_ofList, literalMagnitude]

/-- The literal of a magnitude is read as a pointed numeral that denotes the number. -/
theorem exists_numeral_of_literalMagnitude
    {x : Binary64}
    (finite : x.code < infinityCode) :
    ∃ numeral, ofNumeral x.negative numeral = x ∧
      ∀ rest, Decimal.EndsNumeral rest →
        Decimal.numeral? (x.literalMagnitude ++ rest) = some (numeral, true, rest) := by
  unfold literalMagnitude
  by_cases isZero : x.code = 0
  · have zeroDigits : ∀ c ∈ ['0'], Decimal.isDigit c = true := by
      intro c member
      obtain rfl := List.mem_singleton.mp member
      decide
    rw [if_pos (by simpa [Binary64.isZero] using isZero)]
    refine ⟨⟨['0', '0'], -1⟩, eq_zero_of_code isZero, fun rest ends => ?_⟩
    have read := Decimal.numeral?_pointed (by simp) zeroDigits zeroDigits ends.stopsDigits
    rw [Decimal.withExponent_of_ends ends] at read
    exact read
  · rw [if_neg (by simpa [Binary64.isZero] using isZero)]
    obtain ⟨proper, rounds⟩ := shortest_spec finite isZero
    have denotes : ∀ numeral : Decimal.Numeral, numeral.value = x.shortest.value →
        ofNumeral x.negative numeral = x := by
      intro numeral same
      rw [← same] at rounds
      exact ofDecimal_of_roundsTo finite isZero rounds
    split
    · obtain ⟨numeral, same, read⟩ := Decimal.Scientific.numeral?_pointed proper
      exact ⟨numeral, denotes numeral same, read⟩
    · obtain ⟨numeral, same, read⟩ := Decimal.Scientific.numeral?_exponential proper
      exact ⟨numeral, denotes numeral same, read⟩

/-- The literal of a magnitude begins with a digit. -/
theorem exists_literalMagnitude_eq_cons
    {x : Binary64}
    (finite : x.code < infinityCode) :
    ∃ first others, x.literalMagnitude = first :: others ∧ Decimal.isDigit first = true := by
  unfold literalMagnitude
  by_cases isZero : x.code = 0
  · rw [if_pos (by simpa [Binary64.isZero] using isZero)]
    exact ⟨'0', _, rfl, by decide⟩
  · rw [if_neg (by simpa [Binary64.isZero] using isZero)]
    obtain ⟨proper, -⟩ := shortest_spec finite isZero
    split
    · obtain ⟨first, others, shape⟩ := List.exists_cons_of_ne_nil
        (Decimal.Scientific.wholeDigits_ne_nil proper)
      refine ⟨first, others ++ '.' :: x.shortest.pointedFraction, ?_, ?_⟩
      · rw [Decimal.Scientific.pointed_eq, shape, List.cons_append]
      · exact Decimal.Scientific.isDigit_of_mem_wholeDigits proper (by simp [shape])
    · obtain ⟨first, others, shape⟩ := List.exists_cons_of_ne_nil proper.someDigit
      have firstDigit := proper.allDigits first (by simp [shape])
      unfold Decimal.Scientific.exponential
      rw [shape]
      rcases others with _ | ⟨second, others⟩
      · exact ⟨first, _, rfl, firstDigit⟩
      · exact ⟨first, _, rfl, firstDigit⟩

end FullTextQuery.Binary64
