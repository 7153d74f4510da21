namespace FullTextQuery.Text

/-!
# Ranges of code points

A character class is kept as a list of closed ranges of code points in rising
order.  Membership is a plain search through the list.
-/

/-- Whether a code point lies in one of the closed ranges. -/
def inRanges
    (ranges : List (Nat × Nat))
    (code : Nat) :
    Bool :=
  ranges.any fun range =>
    decide (range.1 ≤ code) && decide (code ≤ range.2)

end FullTextQuery.Text
