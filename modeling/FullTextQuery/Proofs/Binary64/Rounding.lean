import FullTextQuery.Binary64.Shortest
import Mathlib.Algebra.Order.Field.Power
import Mathlib.Data.Rat.Floor
import Mathlib.Tactic.FieldSimp
import Mathlib.Tactic.Linarith
import Mathlib.Tactic.Positivity
import Mathlib.Tactic.Ring

namespace FullTextQuery.Binary64

/-!
# Rounding to the nearest number

A finite number is the significand times a power of two.  Every rational that
is nearer to it than to its neighbours is rounded to it, at the border of two
exponents as well, and a rational in the middle goes to an even significand.
-/

/-- A power with an integer exponent as a quotient of naturals. -/
theorem zpow_eq_div
    (base : Nat)
    (power : Int) :
    (base : ℚ) ^ power = (base ^ power.toNat : Nat) / (base ^ (-power).toNat : Nat) := by
  obtain ⟨n, rfl | rfl⟩ := power.eq_nat_or_neg
  · simp
  · simp [zpow_neg]

section Significand

variable (x : Binary64)

/-- The magnitude code counts the numbers with smaller magnitudes. -/
theorem code_eq :
    (x.code : Int) = (x.exponent + 1074) * significandUnit + x.significand := by
  unfold exponent significand
  split
  · simp
  · have := Nat.div_add_mod x.code significandUnit
    push_cast
    have cast := congrArg (Nat.cast : Nat → Int) this
    push_cast at cast
    linarith

theorem exponent_ge :
    -1074 ≤ x.exponent := by
  unfold exponent
  split
  · exact le_rfl
  · have := Int.natCast_nonneg (x.code / significandUnit)
    omega

theorem significand_lt :
    x.significand < 2 * significandUnit := by
  unfold significand
  split
  · rename_i lowest
    rw [Nat.div_eq_zero_iff] at lowest
    unfold significandUnit at *
    omega
  · have := Nat.mod_lt x.code (by decide : significandUnit > 0)
    omega

/-- Above the lowest exponent the significand has its full length. -/
theorem significand_ge
    (above : -1074 < x.exponent) :
    significandUnit ≤ x.significand := by
  unfold exponent at above
  unfold significand
  split at above
  · omega
  · rename_i notLowest
    simp [notLowest]

theorem exponent_le
    (finite : x.code < infinityCode) :
    x.exponent ≤ 971 := by
  have : x.code / significandUnit < 0x7FF := by
    rw [Nat.div_lt_iff_lt_mul (by decide)]
    exact finite
  unfold exponent
  split
  · decide
  · omega

theorem significand_pos
    {x : Binary64}
    (nonzero : x.code ≠ 0) :
    0 < x.significand := by
  unfold significand
  split
  · omega
  · unfold significandUnit
    omega

/-- A number is made up of its sign and its magnitude. -/
@[simp] theorem ofCode_code :
    ofCode x.negative x.code = x := by
  have bound := x.bits.toNat_lt
  have sum : (if x.negative then signUnit else 0) + x.code = x.bits.toNat := by
    unfold negative code signUnit
    split <;> rename_i sign <;> simp only [decide_eq_true_eq] at sign <;> omega
  rw [ofCode, sum]
  simp

theorem eq_zero_of_code
    {x : Binary64}
    (isZero : x.code = 0) :
    zero x.negative = x := by
  rw [zero, ← isZero, ofCode_code]

end Significand

/-- Rounding a quotient gives the natural that it is nearest to, the even one in the middle. -/
theorem roundQuotient_eq
    {num den nearest : Nat}
    (positive : 0 < den)
    (lower : 2 * nearest * den ≤ 2 * num + den)
    (upper : 2 * num ≤ 2 * nearest * den + den)
    (tie : 2 * nearest * den = 2 * num + den ∨ 2 * num = 2 * nearest * den + den →
      nearest % 2 = 0) :
    roundQuotient num den = nearest := by
  have split := Nat.div_add_mod num den
  have small := Nat.mod_lt num positive
  unfold roundQuotient
  generalize num / den = quotient at split ⊢
  generalize num % den = remainder at split small ⊢
  subst split
  have notBelow : quotient ≤ nearest := by
    by_contra below
    have : (nearest + 1) * den ≤ quotient * den := Nat.mul_le_mul_right den (by omega)
    have := Nat.mul_comm den quotient
    have := Nat.add_one_mul nearest den
    have := Nat.mul_assoc 2 nearest den
    omega
  have notAbove : nearest ≤ quotient + 1 := by
    by_contra above
    have : (quotient + 2) * den ≤ nearest * den := Nat.mul_le_mul_right den (by omega)
    have := Nat.mul_comm den quotient
    have := Nat.add_mul quotient 2 den
    have := Nat.mul_assoc 2 nearest den
    omega
  have product := Nat.mul_comm den quotient
  have doubled := Nat.mul_assoc 2 nearest den
  have isEither : nearest = quotient ∨ nearest = quotient + 1 := by omega
  rcases isEither with rfl | rfl
  · have : ¬ 2 * remainder = den ∨ nearest % 2 = 0 := by
      by_cases middle : 2 * remainder = den
      · exact .inr (tie (.inr (by omega)))
      · exact .inl middle
    rw [if_pos]
    simp only [Bool.or_eq_true, decide_eq_true_eq, Bool.and_eq_true, beq_iff_eq]
    omega
  · have next := Nat.add_one_mul quotient den
    have : ¬ 2 * remainder = den ∨ quotient % 2 = 1 := by
      by_cases middle : 2 * remainder = den
      · have := tie (.inl (by omega))
        omega
      · exact .inl middle
    rw [if_neg]
    simp only [Bool.or_eq_true, decide_eq_true_eq, Bool.and_eq_true, beq_iff_eq]
    omega

/-- Dividing a quotient by a power of two scales its numerator or its denominator. -/
theorem div_zpow_two
    (num den : Nat)
    (power : Int) :
    (num : ℚ) / den / 2 ^ power =
      (num * 2 ^ (-power).toNat : Nat) / (den * 2 ^ power.toNat : Nat) := by
  have split := zpow_eq_div 2 power
  push_cast at split ⊢
  rw [split, div_div_eq_mul_div, div_mul_eq_mul_div, div_div]

/-- Comparing the quotient with a natural needs no rationals. -/
theorem scaled_div_lt_iff
    (num : Nat)
    {den bound : Nat}
    (positive : 0 < den)
    (power : Int) :
    num / Nat.pow 2 power.toNat * Nat.pow 2 (-power).toNat / den < bound ↔
      (num : ℚ) / den / 2 ^ power < bound := by
  have scaledPositive : 0 < den * 2 ^ power.toNat := by positivity
  have compare : (num : ℚ) / den / 2 ^ power < bound ↔
      num * 2 ^ (-power).toNat < bound * (den * 2 ^ power.toNat) := by
    rw [div_zpow_two, div_lt_iff₀ (by exact_mod_cast scaledPositive)]
    exact_mod_cast Iff.rfl
  rw [compare]
  obtain ⟨n, rfl | rfl⟩ := power.eq_nat_or_neg
  · simp only [Int.toNat_natCast, Int.toNat_neg_natCast, Nat.pow_eq, pow_zero, mul_one]
    rw [Nat.div_div_eq_div_mul, Nat.div_lt_iff_lt_mul (by positivity), Nat.mul_comm (2 ^ n) den]
  · simp only [neg_neg, Int.toNat_natCast, Int.toNat_neg_natCast, Nat.pow_eq, pow_zero, mul_one,
      Nat.div_one]
    rw [Nat.div_lt_iff_lt_mul positive]

/-- The quotient lies between the powers of two that the logarithms of its parts give. -/
theorem div_log2_bounds
    {num den : Nat}
    (numPositive : 0 < num)
    (denPositive : 0 < den) :
    (2 : ℚ) ^ ((num.log2 : Int) - den.log2 - 1) < num / den ∧
      (num : ℚ) / den < 2 ^ ((num.log2 : Int) - den.log2 + 1) := by
  have numLower : ((2 ^ num.log2 : Nat) : ℚ) ≤ num := by
    exact_mod_cast Nat.log2_self_le numPositive.ne'
  have numUpper : (num : ℚ) < (2 ^ (num.log2 + 1) : Nat) := by
    exact_mod_cast Nat.lt_log2_self
  have denLower : ((2 ^ den.log2 : Nat) : ℚ) ≤ den := by
    exact_mod_cast Nat.log2_self_le denPositive.ne'
  have denUpper : (den : ℚ) < (2 ^ (den.log2 + 1) : Nat) := by
    exact_mod_cast Nat.lt_log2_self
  have denReal : (0 : ℚ) < den := by exact_mod_cast denPositive
  have power : ∀ n : Nat, ((2 ^ n : Nat) : ℚ) = (2 : ℚ) ^ (n : Int) := by
    intro n
    push_cast
    rfl
  rw [power] at numLower numUpper denLower denUpper
  constructor
  · rw [lt_div_iff₀ denReal]
    calc (2 : ℚ) ^ ((num.log2 : Int) - den.log2 - 1) * den
        < 2 ^ ((num.log2 : Int) - den.log2 - 1) * 2 ^ ((den.log2 + 1 : Nat) : Int) := by gcongr
      _ = 2 ^ (num.log2 : Int) := by
        rw [← zpow_add₀ two_ne_zero]
        congr 1
        push_cast
        ring
      _ ≤ num := numLower
  · rw [div_lt_iff₀ denReal]
    calc (num : ℚ) < 2 ^ ((num.log2 + 1 : Nat) : Int) := numUpper
      _ = 2 ^ ((num.log2 : Int) - den.log2 + 1) * 2 ^ (den.log2 : Int) := by
        rw [← zpow_add₀ two_ne_zero]
        congr 1
        push_cast
        ring
      _ ≤ 2 ^ ((num.log2 : Int) - den.log2 + 1) * den := by gcongr

/-- The code of a quotient is found on the scale on which it has the length of a significand. -/
theorem exists_scale
    {num den : Nat}
    (numPositive : 0 < num)
    (denPositive : 0 < den) :
    ∃ low : Int,
      (2 : ℚ) ^ 52 ≤ num / den / 2 ^ low ∧ (num : ℚ) / den / 2 ^ low < 2 ^ 53 ∧
      codeOfRatio num den =
        min ((max low (-1074) + 1074).toNat * significandUnit
          + roundQuotient (num * 2 ^ (-max low (-1074)).toNat) (den * 2 ^ (max low (-1074)).toNat))
          infinityCode := by
  obtain ⟨lower, upper⟩ := div_log2_bounds numPositive denPositive
  have guessPositive : (0 : ℚ) < 2 ^ ((num.log2 : Int) - den.log2 - 53) := by positivity
  have unit : ((2 * significandUnit : Nat) : ℚ) = 2 ^ 53 := by
    norm_num [significandUnit]
  have aboveGuess : (2 : ℚ) ^ 52 < num / den / 2 ^ ((num.log2 : Int) - den.log2 - 53) := by
    rw [lt_div_iff₀ guessPositive]
    refine lt_of_eq_of_lt ?_ lower
    rw [← zpow_natCast, ← zpow_add₀ two_ne_zero]
    congr 1
    push_cast
    ring
  have belowGuess : (num : ℚ) / den / 2 ^ ((num.log2 : Int) - den.log2 - 53) < 2 ^ 54 := by
    rw [div_lt_iff₀ guessPositive]
    refine lt_of_lt_of_eq upper ?_
    rw [← zpow_natCast, ← zpow_add₀ two_ne_zero]
    congr 1
    push_cast
    ring
  have code : ∀ low : Int,
      (if num / Nat.pow 2 ((num.log2 : Int) - den.log2 - 53).toNat *
            Nat.pow 2 (-((num.log2 : Int) - den.log2 - 53)).toNat / den < 2 * significandUnit then
          (num.log2 : Int) - den.log2 - 53
        else (num.log2 : Int) - den.log2 - 53 + 1) = low →
      codeOfRatio num den =
        min ((max low (-1074) + 1074).toNat * significandUnit
          + roundQuotient (num * 2 ^ (-max low (-1074)).toNat) (den * 2 ^ (max low (-1074)).toNat))
          infinityCode := by
    rintro _ rfl
    rw [codeOfRatio, if_neg numPositive.ne']
    rfl
  simp only [scaled_div_lt_iff num denPositive, unit] at code
  by_cases fits : (num : ℚ) / den / 2 ^ ((num.log2 : Int) - den.log2 - 53) < 2 ^ 53
  · exact ⟨_, aboveGuess.le, fits, code _ (if_pos fits)⟩
  · refine ⟨_, ?_, ?_, code _ (if_neg fits)⟩
    all_goals rw [zpow_add_one₀ two_ne_zero, ← div_div]
    · linarith
    · linarith

/-- A scaled quotient is rounded to the natural that it is nearest to. -/
theorem roundQuotient_of_near
    {num den nearest : Nat}
    {power : Int}
    (positive : 0 < den)
    (lower : (nearest : ℚ) - 1 / 2 ≤ num / den / 2 ^ power)
    (upper : (num : ℚ) / den / 2 ^ power ≤ nearest + 1 / 2)
    (tie : (num : ℚ) / den / 2 ^ power = nearest - 1 / 2 ∨
      (num : ℚ) / den / 2 ^ power = nearest + 1 / 2 → nearest % 2 = 0) :
    roundQuotient (num * 2 ^ (-power).toNat) (den * 2 ^ power.toNat) = nearest := by
  rw [div_zpow_two] at lower upper tie
  have scaledPositive : 0 < den * 2 ^ power.toNat := by positivity
  generalize num * 2 ^ (-power).toNat = scaledNum at *
  generalize den * 2 ^ power.toNat = scaledDen at *
  have denReal : (0 : ℚ) < scaledDen := by exact_mod_cast scaledPositive
  refine roundQuotient_eq scaledPositive ?_ ?_ fun ends => tie ?_
  · rw [le_div_iff₀ denReal] at lower
    have : 2 * (nearest : ℚ) * scaledDen ≤ 2 * scaledNum + scaledDen := by linarith
    exact_mod_cast this
  · rw [div_le_iff₀ denReal] at upper
    have : 2 * (scaledNum : ℚ) ≤ 2 * nearest * scaledDen + scaledDen := by linarith
    exact_mod_cast this
  · rcases ends with lowerEnd | upperEnd
    · left
      have : 2 * (nearest : ℚ) * scaledDen = 2 * scaledNum + scaledDen := by
        exact_mod_cast lowerEnd
      rw [div_eq_iff denReal.ne']
      linarith
    · right
      have : 2 * (scaledNum : ℚ) = 2 * nearest * scaledDen + scaledDen := by
        exact_mod_cast upperEnd
      rw [div_eq_iff denReal.ne']
      linarith

/-- Half the distance to the number below, in units of the last place. -/
def gapBelow
    (x : Binary64) :
    ℚ :=
  if x.significand = significandUnit ∧ -1074 < x.exponent then 1 / 4 else 1 / 2

/-- The rationals that are rounded to a finite magnitude other than zero. -/
structure RoundsTo
    (value : ℚ)
    (x : Binary64) :
    Prop where
  lower : (x.significand - x.gapBelow) * 2 ^ x.exponent ≤ value
  upper : value ≤ (x.significand + 1 / 2) * 2 ^ x.exponent
  ends : value = (x.significand - x.gapBelow) * 2 ^ x.exponent ∨
    value = (x.significand + 1 / 2) * 2 ^ x.exponent → x.significand % 2 = 0

theorem gapBelow_le
    (x : Binary64) :
    x.gapBelow ≤ 1 / 2 := by
  unfold gapBelow
  split <;> norm_num

theorem gapBelow_pos
    (x : Binary64) :
    0 < x.gapBelow := by
  unfold gapBelow
  split <;> norm_num

section RoundsTo

variable {x : Binary64} {value : ℚ}

theorem RoundsTo.pos
    (nonzero : x.code ≠ 0)
    (rounds : RoundsTo value x) :
    0 < value := by
  refine lt_of_lt_of_le ?_ rounds.lower
  have : (1 : ℚ) ≤ x.significand := by exact_mod_cast significand_pos nonzero
  have := x.gapBelow_le
  have : (0 : ℚ) < x.significand - x.gapBelow := by linarith
  positivity

/-- In units of the last place, what rounds to a number is within the gaps around it. -/
theorem RoundsTo.scaled
    (rounds : RoundsTo value x) :
    (x.significand : ℚ) - x.gapBelow ≤ value / 2 ^ x.exponent ∧
      value / 2 ^ x.exponent ≤ x.significand + 1 / 2 ∧
      (value / 2 ^ x.exponent = x.significand - x.gapBelow ∨
        value / 2 ^ x.exponent = x.significand + 1 / 2 → x.significand % 2 = 0) := by
  have positive : (0 : ℚ) < 2 ^ x.exponent := by positivity
  rw [le_div_iff₀ positive, div_le_iff₀ positive, div_eq_iff positive.ne', div_eq_iff positive.ne']
  exact ⟨rounds.lower, rounds.upper, rounds.ends⟩

/-- Powers of two whose multiples are ordered are ordered. -/
theorem lt_of_mul_zpow_two
    {first second : Int}
    {m n : Nat}
    (ordered : (2 : ℚ) ^ m * 2 ^ first < 2 ^ n * 2 ^ second) :
    m + first < n + second := by
  rw [← zpow_natCast, ← zpow_natCast, ← zpow_add₀ two_ne_zero, ← zpow_add₀ two_ne_zero] at ordered
  exact (zpow_lt_zpow_iff_right₀ one_lt_two).mp ordered

/-- In units of the last place, what rounds to a number is shorter than the next scale. -/
theorem RoundsTo.scaled_lt
    (rounds : RoundsTo value x) :
    value / 2 ^ x.exponent < 2 ^ 53 := by
  obtain ⟨-, upper, -⟩ := rounds.scaled
  have limit : (x.significand : ℚ) + 1 ≤ 2 ^ 53 := by
    have := x.significand_lt
    unfold significandUnit at this
    exact_mod_cast this
  exact lt_of_le_of_lt upper (by linarith only [limit])

/-- Only a power of two has rationals below the scale of its exponent. -/
theorem RoundsTo.significand_eq_of_below
    (rounds : RoundsTo value x)
    (above : -1074 < x.exponent)
    (below : value / 2 ^ x.exponent < 2 ^ 52) :
    x.significand = significandUnit := by
  obtain ⟨lower, -⟩ := rounds.scaled
  have gap := x.gapBelow_le
  have notBelow := x.significand_ge above
  have small : (x.significand : ℚ) < 2 ^ 52 + 1 := by linarith only [lower, gap, below]
  have notAbove : x.significand < 2 ^ 52 + 1 := by exact_mod_cast small
  unfold significandUnit at *
  omega

/-- Above the lowest exponent, what rounds to a number is at least half a scale. -/
theorem RoundsTo.half_lt
    (rounds : RoundsTo value x)
    (above : -1074 < x.exponent) :
    2 ^ 51 * 2 ^ x.exponent < value := by
  have positive : (0 : ℚ) < 2 ^ x.exponent := by positivity
  obtain ⟨lower, -⟩ := rounds.scaled
  have gap := x.gapBelow_le
  have long : (2 : ℚ) ^ 52 ≤ x.significand := by
    have := x.significand_ge above
    unfold significandUnit at this
    exact_mod_cast this
  rw [← lt_div_iff₀ positive]
  linarith only [lower, gap, long]

/-- On the scale of its exponent, what rounds to a number is rounded to its significand. -/
theorem RoundsTo.roundQuotient_eq
    {num den : Nat}
    (denPositive : 0 < den)
    (rounds : RoundsTo (num / den) x) :
    roundQuotient (num * 2 ^ (-x.exponent).toNat) (den * 2 ^ x.exponent.toNat) =
      x.significand := by
  obtain ⟨lower, upper, ends⟩ := rounds.scaled
  have gap := x.gapBelow_le
  generalize scaled : (num : ℚ) / den / 2 ^ x.exponent = quotient at lower upper ends
  have lower' : (x.significand : ℚ) - 1 / 2 ≤ quotient := (sub_le_sub_left gap _).trans lower
  refine roundQuotient_of_near denPositive (scaled ▸ lower') (scaled ▸ upper) fun tie => ends ?_
  rw [scaled] at tie
  rcases tie with lowerEnd | upperEnd
  · exact .inl (le_antisymm (lowerEnd ▸ sub_le_sub_left gap _) lower)
  · exact .inr upperEnd

/-- Just below a power of two, what rounds to the power does so on the scale below it. -/
theorem RoundsTo.roundQuotient_eq_of_below
    {num den : Nat}
    (denPositive : 0 < den)
    (rounds : RoundsTo (num / den) x)
    (least : x.significand = significandUnit)
    (above : -1074 < x.exponent)
    (below : (num : ℚ) / den / 2 ^ x.exponent < 2 ^ 52) :
    roundQuotient (num * 2 ^ (-(x.exponent - 1)).toNat) (den * 2 ^ (x.exponent - 1).toNat) =
      2 * significandUnit := by
  obtain ⟨lower, -⟩ := rounds.scaled
  have gap : x.gapBelow = 1 / 4 := if_pos ⟨least, above⟩
  have unit : (significandUnit : ℚ) = 2 ^ 52 := by norm_num [significandUnit]
  have halved : (num : ℚ) / den / 2 ^ (x.exponent - 1) = 2 * (num / den / 2 ^ x.exponent) := by
    rw [zpow_sub_one₀ two_ne_zero]
    field_simp
  rw [gap, least, unit] at lower
  generalize (num : ℚ) / den / 2 ^ x.exponent = quotient at lower below halved
  refine roundQuotient_of_near denPositive ?_ ?_ fun _ => by decide
  all_goals
    rw [halved]
    push_cast
    rw [unit]
  · linarith only [lower]
  · linarith only [below]

end RoundsTo

/-- The significand and the exponent make up the magnitude code. -/
theorem code_of_parts
    {x : Binary64}
    {exponent : Int}
    {significand : Nat}
    (low : -1074 ≤ exponent)
    (parts : (x.code : Int) = (exponent + 1074) * significandUnit + significand) :
    (exponent + 1074).toNat * significandUnit + significand = x.code := by
  zify
  rw [Int.toNat_of_nonneg (by omega)]
  exact parts.symm

/-- A quotient that rounds to a finite number has the magnitude code of the number. -/
theorem codeOfRatio_of_roundsTo
    {x : Binary64}
    (finite : x.code < infinityCode)
    (nonzero : x.code ≠ 0)
    {num den : Nat}
    (denPositive : 0 < den)
    (rounds : RoundsTo (num / den) x) :
    codeOfRatio num den = x.code := by
  have numPositive : 0 < num := by
    rcases Nat.eq_zero_or_pos num with rfl | positive
    · have := rounds.pos nonzero
      simp at this
    · exact positive
  obtain ⟨low, above, below, code⟩ := exists_scale numPositive denPositive
  have positive : ∀ power : Int, (0 : ℚ) < 2 ^ power := fun power => by positivity
  have aboveLow : (2 : ℚ) ^ 52 * 2 ^ low ≤ num / den := (le_div_iff₀ (positive low)).mp above
  have belowLow : (num : ℚ) / den < 2 ^ 53 * 2 ^ low := (div_lt_iff₀ (positive low)).mp below
  have notAbove : low ≤ x.exponent := by
    have short := rounds.scaled_lt
    have := lt_of_mul_zpow_two
      (lt_of_le_of_lt aboveLow ((div_lt_iff₀ (positive x.exponent)).mp short))
    omega
  have exponentLow := x.exponent_ge
  have sameScale : max low (-1074) = x.exponent → codeOfRatio num den = x.code := by
    intro scale
    rw [code, scale, rounds.roundQuotient_eq denPositive, code_of_parts exponentLow x.code_eq]
    exact min_eq_left finite.le
  by_cases full : (2 : ℚ) ^ 52 ≤ num / den / 2 ^ x.exponent
  · have := lt_of_mul_zpow_two (lt_of_le_of_lt ((le_div_iff₀ (positive _)).mp full) belowLow)
    exact sameScale (by omega)
  · by_cases lowest : x.exponent = -1074
    · exact sameScale (by omega)
    · -- The quotient lies below a power of two and is rounded on the scale below it.
      have short := not_le.mp full
      have aboveLowest : -1074 < x.exponent := by omega
      have least := rounds.significand_eq_of_below aboveLowest short
      have longer := lt_of_mul_zpow_two ((rounds.half_lt aboveLowest).trans belowLow)
      have shorter := lt_of_mul_zpow_two
        (lt_of_le_of_lt aboveLow ((div_lt_iff₀ (positive _)).mp short))
      have scale : max low (-1074) = x.exponent - 1 := by omega
      rw [code, scale, rounds.roundQuotient_eq_of_below denPositive least aboveLowest short,
        code_of_parts (by omega)]
      · exact min_eq_left finite.le
      · rw [x.code_eq, least]
        push_cast
        ring

/-- What rounds to a finite number is below every power of ten that overflows. -/
theorem RoundsTo.lt_of_finite
    {x : Binary64}
    {value : ℚ}
    (finite : x.code < infinityCode)
    (rounds : RoundsTo value x) :
    value < 10 ^ (309 : Int) := by
  have positive : (0 : ℚ) < 2 ^ x.exponent := by positivity
  have small : (2 : ℚ) ^ x.exponent ≤ 2 ^ (971 : Int) :=
    zpow_le_zpow_right₀ one_le_two (x.exponent_le finite)
  calc value < 2 ^ 53 * 2 ^ x.exponent := (div_lt_iff₀ positive).mp rounds.scaled_lt
    _ ≤ 2 ^ 53 * 2 ^ (971 : Int) := mul_le_mul_of_nonneg_left small (by norm_num)
    _ < 10 ^ (309 : Int) := by
      have : 2 ^ 53 * 2 ^ 971 < 10 ^ 309 := by decide +kernel
      exact_mod_cast this

/-- What rounds to a number other than zero is above every power of ten that vanishes. -/
theorem RoundsTo.gt_of_nonzero
    {x : Binary64}
    {value : ℚ}
    (nonzero : x.code ≠ 0)
    (rounds : RoundsTo value x) :
    10 ^ (-330 : Int) < value := by
  have least : (2 : ℚ) ^ (-1074 : Int) ≤ 2 ^ x.exponent :=
    zpow_le_zpow_right₀ one_le_two x.exponent_ge
  have isPositive : (1 : ℚ) ≤ x.significand := by exact_mod_cast significand_pos nonzero
  have gap := x.gapBelow_le
  have half : (1 : ℚ) / 2 ≤ x.significand - x.gapBelow := by linarith only [isPositive, gap]
  calc (10 : ℚ) ^ (-330 : Int) < 1 / 2 * 2 ^ (-1074 : Int) := by
        have : 2 * 2 ^ 1074 < 10 ^ 330 := by decide +kernel
        rw [zpow_neg, zpow_neg, one_div, ← mul_inv, inv_lt_inv₀ (by positivity) (by positivity)]
        exact_mod_cast this
    _ ≤ (x.significand - x.gapBelow) * 2 ^ x.exponent :=
      mul_le_mul half least (by positivity) (by linarith only [half])
    _ ≤ value := rounds.lower

/-- The length of the digits of a natural brackets it between powers of ten. -/
theorem length_toDigits_bounds
    {n : Nat}
    (positive : 0 < n) :
    (10 : ℚ) ^ (((Nat.toDigits 10 n).length : Int) - 1) ≤ n ∧
      (n : ℚ) < 10 ^ ((Nat.toDigits 10 n).length : Int) := by
  have lengthPositive := Nat.length_toDigits_pos (b := 10) (n := n)
  generalize shape : (Nat.toDigits 10 n).length = length at lengthPositive
  obtain ⟨shorter, rfl⟩ : ∃ shorter, length = shorter + 1 := ⟨length - 1, by omega⟩
  constructor
  · have notShorter : 10 ^ shorter ≤ n := by
      rcases Nat.eq_zero_or_pos shorter with rfl | more
      · exact positive
      · by_contra below
        have := (Nat.length_toDigits_le_iff (by decide) more).mpr (not_le.mp below)
        omega
    push_cast
    rw [add_sub_cancel_right, zpow_natCast]
    exact_mod_cast notShorter
  · have notLonger := (Nat.length_toDigits_le_iff (b := 10) (n := n) (by decide)
      lengthPositive).mp shape.le
    rw [zpow_natCast]
    exact_mod_cast notLonger

/-- A decimal that rounds to a finite number is read as the number. -/
theorem ofDecimal_of_roundsTo
    {x : Binary64}
    (finite : x.code < infinityCode)
    (nonzero : x.code ≠ 0)
    {mantissa : Nat}
    {power : Int}
    (rounds : RoundsTo (mantissa * 10 ^ power) x) :
    ofDecimal x.negative mantissa power = x := by
  have mantissaPositive : 0 < mantissa := by
    rcases Nat.eq_zero_or_pos mantissa with rfl | positive
    · have := rounds.pos nonzero
      simp at this
    · exact positive
  obtain ⟨notShorter, notLonger⟩ := length_toDigits_bounds mantissaPositive
  have scalePositive : (0 : ℚ) < 10 ^ power := by positivity
  have notAbove : ((Nat.toDigits 10 mantissa).length : Int) - 1 + power < 309 := by
    refine (zpow_lt_zpow_iff_right₀ (by norm_num : (1 : ℚ) < 10)).mp ?_
    rw [zpow_add₀ (by norm_num)]
    exact lt_of_le_of_lt (mul_le_mul_of_nonneg_right notShorter scalePositive.le)
      (rounds.lt_of_finite finite)
  have notBelow : -330 < ((Nat.toDigits 10 mantissa).length : Int) + power := by
    refine (zpow_lt_zpow_iff_right₀ (by norm_num : (1 : ℚ) < 10)).mp ?_
    rw [zpow_add₀ (by norm_num)]
    exact lt_trans (rounds.gt_of_nonzero nonzero)
      (mul_lt_mul_of_pos_right notLonger scalePositive)
  have asQuotient : (mantissa : ℚ) * 10 ^ power =
      (mantissa * 10 ^ power.toNat : Nat) / (10 ^ (-power).toNat : Nat) := by
    have split := zpow_eq_div 10 power
    push_cast at split ⊢
    rw [split, mul_div_assoc]
  have code := codeOfRatio_of_roundsTo finite nonzero (by positivity) (asQuotient ▸ rounds)
  rw [ofDecimal, if_neg mantissaPositive.ne', if_neg (by omega), if_neg (by omega), ofRatio]
  simp only [Nat.pow_eq, code, ofCode_code]

end FullTextQuery.Binary64
