import FullTextQuery.Binary64.Text

namespace FullTextQuery

/-!
# The nearest reading of numerals

What holds of the rows of a store holds for every reading of numerals.  Programs
that run, and statements about one input, use the nearest double.
-/

/-- The reading of a store that never misses the nearest double. -/
instance NumeralReading.nearest : NumeralReading :=
  ⟨Binary64.ofNumeral⟩

end FullTextQuery
