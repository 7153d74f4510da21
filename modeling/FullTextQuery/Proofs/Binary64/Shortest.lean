import FullTextQuery.Proofs.Binary64.Rounding
import FullTextQuery.Proofs.Decimal.Numeral
import Mathlib.Algebra.Order.Floor.Semifield

namespace FullTextQuery.Binary64

/-!
# The shortest decimal of a number

The shortest decimal of a finite number other than zero is a positive decimal
that rounds to the number.  The search for it always ends on a grid that has a
point in the rounding interval: eighteen digits are more than enough.
-/

section Interval

variable {x : Binary64}

/-- The value in the interval is the magnitude of the number. -/
theorem roundingInterval_value
    (x : Binary64) :
    (x.roundingInterval.value : ℚ) / x.roundingInterval.denominator =
      x.significand * 2 ^ x.exponent := by
  have split := zpow_eq_div 2 x.exponent
  simp only [roundingInterval, Nat.pow_eq]
  push_cast at split ⊢
  rw [split]
  field_simp

theorem roundingInterval_upper
    (x : Binary64) :
    (x.roundingInterval.upper : ℚ) / x.roundingInterval.denominator =
      (x.significand + 1 / 2) * 2 ^ x.exponent := by
  have split := zpow_eq_div 2 x.exponent
  simp only [roundingInterval, Nat.pow_eq]
  push_cast at split ⊢
  rw [split]
  field_simp
  ring

theorem roundingInterval_lower
    (nonzero : x.code ≠ 0) :
    (x.roundingInterval.lower : ℚ) / x.roundingInterval.denominator =
      (x.significand - x.gapBelow) * 2 ^ x.exponent := by
  have positive := significand_pos nonzero
  have split := zpow_eq_div 2 x.exponent
  simp only [roundingInterval, gapBelow, Nat.pow_eq]
  by_cases least : x.significand = significandUnit ∧ -1074 < x.exponent
  · rw [if_pos least, if_pos least, Nat.cast_mul, Nat.cast_sub (by omega)]
    push_cast at split ⊢
    rw [split]
    field_simp
  · rw [if_neg least, if_neg least, Nat.cast_mul, Nat.cast_sub (by omega)]
    push_cast at split ⊢
    rw [split]
    field_simp
    ring

theorem roundingInterval_denominator_pos
    (x : Binary64) :
    0 < x.roundingInterval.denominator := by
  simp only [roundingInterval, Nat.pow_eq]
  positivity

end Interval

namespace RoundingInterval

variable {i : RoundingInterval} {mantissa : Nat} {scale : Int}

/-- Comparing a point of a grid with an end of the interval needs no rationals. -/
theorem end_le_point_iff
    (positive : 0 < i.denominator)
    (edge : Nat) :
    edge * Nat.pow 10 (-scale).toNat ≤ mantissa * Nat.pow 10 scale.toNat * i.denominator ↔
      (edge : ℚ) / i.denominator ≤ mantissa * 10 ^ scale := by
  have split := zpow_eq_div 10 scale
  have denominator : (0 : ℚ) < i.denominator := by exact_mod_cast positive
  push_cast at split
  rw [split, ← mul_div_assoc, div_le_div_iff₀ denominator (by positivity), Nat.pow_eq, Nat.pow_eq]
  exact_mod_cast Iff.rfl

theorem point_le_end_iff
    (positive : 0 < i.denominator)
    (edge : Nat) :
    mantissa * Nat.pow 10 scale.toNat * i.denominator ≤ edge * Nat.pow 10 (-scale).toNat ↔
      mantissa * 10 ^ scale ≤ (edge : ℚ) / i.denominator := by
  have split := zpow_eq_div 10 scale
  have denominator : (0 : ℚ) < i.denominator := by exact_mod_cast positive
  push_cast at split
  rw [split, ← mul_div_assoc, div_le_div_iff₀ (by positivity) denominator, Nat.pow_eq, Nat.pow_eq]
  exact_mod_cast Iff.rfl

/-- A point lies in the interval when it lies between the ends, or on an end that belongs to it. -/
theorem holds_iff
    (positive : 0 < i.denominator) :
    i.holds mantissa scale = true ↔
      (i.lower : ℚ) / i.denominator ≤ mantissa * 10 ^ scale ∧
      mantissa * 10 ^ scale ≤ (i.upper : ℚ) / i.denominator ∧
      (mantissa * 10 ^ scale = (i.lower : ℚ) / i.denominator ∨
        mantissa * 10 ^ scale = (i.upper : ℚ) / i.denominator → i.closed = true) := by
  unfold holds
  by_cases closed : i.closed = true
  · simp only [closed, ↓reduceIte, Bool.and_eq_true, decide_eq_true_eq, end_le_point_iff positive,
      point_le_end_iff positive, implies_true, and_true]
  · simp only [closed, Bool.false_eq_true, ↓reduceIte, Bool.and_eq_true, decide_eq_true_eq,
      ← not_le, end_le_point_iff positive, point_le_end_iff positive]
    simp only [not_le]
    constructor
    · rintro ⟨above, below⟩
      refine ⟨above.le, below.le, fun ends => ?_⟩
      rcases ends with lowerEnd | upperEnd
      · exact absurd lowerEnd above.ne'
      · exact absurd upperEnd below.ne
    · rintro ⟨above, below, ends⟩
      exact ⟨lt_of_le_of_ne above fun lowerEnd => ends (.inl lowerEnd.symm),
        lt_of_le_of_ne below fun upperEnd => ends (.inr upperEnd)⟩

/-- What is found on a grid lies in the interval. -/
theorem holds_of_nearestOn?
    (found : i.nearestOn? scale = some mantissa) :
    i.holds mantissa scale = true := by
  unfold nearestOn? at found
  simp only at found
  split at found
  · rename_i low
    obtain rfl := Option.some.inj found
    rw [Bool.and_eq_true] at low
    exact low.1
  · split at found
    · rename_i high
      obtain rfl := Option.some.inj found
      exact high
    · cases found

/-- The point above the value is found where no nearer one is. -/
theorem exists_nearestOn?
    (above : i.holds
      (i.value * Nat.pow 10 (-scale).toNat / (i.denominator * Nat.pow 10 scale.toNat) + 1) scale =
        true) :
    ∃ found, i.nearestOn? scale = some found := by
  unfold nearestOn?
  simp only [above, ↓reduceIte]
  split
  · exact ⟨_, rfl⟩
  · exact ⟨_, rfl⟩

/-- If a grid that is tried has a point in the interval, the search finds such a point. -/
theorem exists_firstFrom
    {attempts : Nat}
    {below : Nat}
    (tried : below < attempts)
    (hasPoint : ∃ found, i.nearestOn? (scale - below) = some found) :
    ∃ mantissa place,
      i.firstFrom scale attempts = Decimal.Scientific.ofNat mantissa place ∧
      i.holds mantissa place = true := by
  induction attempts generalizing scale below with
  | zero => omega
  | succ attempts inductionHypothesis =>
      unfold firstFrom
      cases here : i.nearestOn? scale with
      | some mantissa => exact ⟨mantissa, scale, rfl, holds_of_nearestOn? here⟩
      | none =>
          rcases below with _ | below
          · obtain ⟨found, isFound⟩ := hasPoint
            rw [Int.natCast_zero, Int.sub_zero, here] at isFound
            cases isFound
          · have shifted : scale - (below + 1 : Nat) = scale - 1 - below := by omega
            rw [shifted] at hasPoint
            exact inductionHypothesis (by omega) hasPoint

end RoundingInterval

/-- The estimate of a logarithm never exceeds it in the range of the format. -/
theorem ten_zpow_estimate_le
    {power : Int}
    (notLow : -1200 < power)
    (notHigh : power < 1100) :
    (10 : ℚ) ^ (power * 30103).fdiv 100000 ≤ 2 ^ power := by
  have positivePowers : ∀ n < 1100, 10 ^ (n * 30103 / 100000) ≤ 2 ^ n := by decide +kernel
  have negativePowers : ∀ n < 1200, 2 ^ n ≤ 10 ^ ((n * 30103 + 99999) / 100000) := by
    decide +kernel
  obtain ⟨n, rfl | rfl⟩ := power.eq_nat_or_neg
  · have estimate : ((n : Int) * 30103).fdiv 100000 = (n * 30103 / 100000 : Nat) := by
      rw [Int.fdiv_eq_ediv_of_nonneg _ (by decide)]
      omega
    rw [estimate, zpow_natCast, zpow_natCast]
    exact_mod_cast positivePowers n (by omega)
  · have estimate : (-(n : Int) * 30103).fdiv 100000 = -((n * 30103 + 99999) / 100000 : Nat) := by
      rw [Int.fdiv_eq_ediv_of_nonneg _ (by decide)]
      omega
    rw [estimate, zpow_neg, zpow_neg, zpow_natCast, zpow_natCast]
    refine inv_anti₀ (by positivity) ?_
    exact_mod_cast negativePowers n (by omega)

section Search

variable {x : Binary64}

/-- The power of the first digit is not above the number. -/
theorem ten_zpow_power_le
    (finite : x.code < infinityCode)
    (nonzero : x.code ≠ 0) :
    10 ^ x.roundingInterval.power ≤ (x.significand : ℚ) * 2 ^ x.exponent := by
  have denominatorPositive := roundingInterval_denominator_pos x
  have value := roundingInterval_value x
  have isPositive : (1 : ℚ) ≤ x.significand := by exact_mod_cast significand_pos nonzero
  have valuePositive : 0 < x.roundingInterval.value := by
    simp only [roundingInterval, Nat.pow_eq]
    have := significand_pos nonzero
    positivity
  obtain ⟨above, below⟩ := div_log2_bounds valuePositive denominatorPositive
  rw [value] at above below
  have high : (x.significand : ℚ) * 2 ^ x.exponent < 2 ^ (1024 : Int) := by
    have short : (x.significand : ℚ) < 2 ^ (53 : Int) := by
      have := x.significand_lt
      unfold significandUnit at this
      exact_mod_cast this
    calc (x.significand : ℚ) * 2 ^ x.exponent < 2 ^ (53 : Int) * 2 ^ x.exponent :=
        mul_lt_mul_of_pos_right short (by positivity)
      _ = 2 ^ (53 + x.exponent) := (zpow_add₀ two_ne_zero _ _).symm
      _ ≤ 2 ^ (1024 : Int) :=
        zpow_le_zpow_right₀ one_le_two (by linarith only [x.exponent_le finite])
  have low : (2 : ℚ) ^ (-1074 : Int) ≤ x.significand * 2 ^ x.exponent := by
    calc (2 : ℚ) ^ (-1074 : Int) ≤ 2 ^ x.exponent :=
        zpow_le_zpow_right₀ one_le_two x.exponent_ge
      _ = 1 * 2 ^ x.exponent := (one_mul _).symm
      _ ≤ x.significand * 2 ^ x.exponent := mul_le_mul_of_nonneg_right isPositive (by positivity)
  have notHigh := (zpow_lt_zpow_iff_right₀ one_lt_two).mp (above.trans high)
  have notLow := (zpow_lt_zpow_iff_right₀ one_lt_two).mp (lt_of_le_of_lt low below)
  unfold RoundingInterval.power
  simp only [decide_eq_true_eq]
  split
  · rename_i reaches
    rw [← one_mul (Nat.pow 10 _), RoundingInterval.point_le_end_iff denominatorPositive, value,
      Nat.cast_one, one_mul] at reaches
    exact reaches
  · exact (ten_zpow_estimate_le (by omega) (by omega)).trans above.le

end Search

/-- The decimals in the rounding interval of a number round to it. -/
theorem roundsTo_of_holds
    {x : Binary64}
    (nonzero : x.code ≠ 0)
    {mantissa : Nat}
    {scale : Int}
    (holds : x.roundingInterval.holds mantissa scale = true) :
    RoundsTo (mantissa * 10 ^ scale) x := by
  have inside := (RoundingInterval.holds_iff (roundingInterval_denominator_pos x)).mp holds
  rw [roundingInterval_lower nonzero, roundingInterval_upper] at inside
  obtain ⟨lower, upper, ends⟩ := inside
  have closed : x.roundingInterval.closed = true → x.significand % 2 = 0 := by
    simp [roundingInterval]
  exact ⟨lower, upper, fun tie => closed (ends tie)⟩

/-- On a grid finer than half a unit of the last place, the point above the number is near. -/
theorem holds_above
    {x : Binary64}
    {scale : Int}
    (nonzero : x.code ≠ 0)
    (fine : (10 : ℚ) ^ scale < 1 / 2 * 2 ^ x.exponent) :
    x.roundingInterval.holds
      (x.roundingInterval.value * Nat.pow 10 (-scale).toNat /
        (x.roundingInterval.denominator * Nat.pow 10 scale.toNat) + 1) scale = true := by
  have denominatorPositive := roundingInterval_denominator_pos x
  have exponentPositive : (0 : ℚ) < 2 ^ x.exponent := by positivity
  have scalePositive : (0 : ℚ) < 10 ^ scale := by positivity
  have split := zpow_eq_div 10 scale
  have quotient : ((x.roundingInterval.value * Nat.pow 10 (-scale).toNat : Nat) : ℚ) /
      (x.roundingInterval.denominator * Nat.pow 10 scale.toNat : Nat) =
        x.significand * 2 ^ x.exponent / 10 ^ scale := by
    push_cast [Nat.pow_eq] at split ⊢
    rw [← roundingInterval_value, split]
    field_simp
  rw [← @Nat.floor_div_eq_div ℚ, quotient]
  have notBelow := Nat.floor_le
    (div_nonneg (mul_nonneg (Nat.cast_nonneg x.significand) exponentPositive.le) scalePositive.le)
  have notAbove := Nat.lt_floor_add_one ((x.significand : ℚ) * 2 ^ x.exponent / 10 ^ scale)
  rw [le_div_iff₀ scalePositive] at notBelow
  rw [div_lt_iff₀ scalePositive] at notAbove
  generalize ⌊(x.significand : ℚ) * 2 ^ x.exponent / 10 ^ scale⌋₊ = floor at notBelow notAbove ⊢
  have gap := (gapBelow_pos x).le
  have lowerEnd : (x.significand - x.gapBelow) * 2 ^ x.exponent ≤
      (x.significand : ℚ) * 2 ^ x.exponent :=
    mul_le_mul_of_nonneg_right (by linarith only [gap]) exponentPositive.le
  have inside : (x.significand : ℚ) * 2 ^ x.exponent < (floor + 1 : Nat) * 10 ^ scale ∧
      ((floor + 1 : Nat) : ℚ) * 10 ^ scale < (x.significand + 1 / 2) * 2 ^ x.exponent := by
    push_cast
    exact ⟨notAbove, by linarith only [notBelow, fine]⟩
  rw [RoundingInterval.holds_iff denominatorPositive, roundingInterval_lower nonzero,
    roundingInterval_upper]
  refine ⟨lowerEnd.trans inside.1.le, inside.2.le, fun ends => ?_⟩
  rcases ends with atLower | atUpper
  · exact absurd atLower (lt_of_le_of_lt lowerEnd inside.1).ne'
  · exact absurd atUpper inside.2.ne

/-- The shortest decimal rounds to the number, and is proper. -/
theorem shortest_spec
    {x : Binary64}
    (finite : x.code < infinityCode)
    (nonzero : x.code ≠ 0) :
    x.shortest.Proper ∧ RoundsTo x.shortest.value x := by
  have exponentPositive : (0 : ℚ) < 2 ^ x.exponent := by positivity
  have fine : (10 : ℚ) ^ (x.roundingInterval.power - (17 : Nat)) < 1 / 2 * 2 ^ x.exponent := by
    have short : (x.significand : ℚ) < 2 ^ 53 := by
      have := x.significand_lt
      unfold significandUnit at this
      exact_mod_cast this
    rw [zpow_sub₀ (by norm_num), div_lt_iff₀ (by positivity)]
    calc (10 : ℚ) ^ x.roundingInterval.power ≤ x.significand * 2 ^ x.exponent :=
        ten_zpow_power_le finite nonzero
      _ < 2 ^ 53 * 2 ^ x.exponent := mul_lt_mul_of_pos_right short exponentPositive
      _ ≤ 1 / 2 * 2 ^ x.exponent * 10 ^ ((17 : Nat) : Int) := by
        rw [mul_right_comm]
        refine mul_le_mul_of_nonneg_right ?_ exponentPositive.le
        norm_num
  have tried : 17 < 18 := by decide
  obtain ⟨mantissa, place, found, holds⟩ := RoundingInterval.exists_firstFrom tried
    (RoundingInterval.exists_nearestOn? (holds_above nonzero fine))
  have rounds := roundsTo_of_holds nonzero holds
  have mantissaPositive : 0 < mantissa := by
    rcases Nat.eq_zero_or_pos mantissa with rfl | positive
    · have := rounds.pos nonzero
      simp at this
    · exact positive
  have isFound : x.shortest = Decimal.Scientific.ofNat mantissa place := found
  rw [isFound, Decimal.Scientific.value_ofNat mantissaPositive]
  exact ⟨Decimal.Scientific.proper_ofNat mantissaPositive place, rounds⟩

end FullTextQuery.Binary64
