import FullTextQuery.Decimal.Scientific
import FullTextQuery.Proofs.Text.Run
import Mathlib.Algebra.Order.Field.Power
import Mathlib.Data.Rat.Floor
import Mathlib.Tactic.FieldSimp
import Mathlib.Tactic.Linarith
import Mathlib.Tactic.Positivity
import Mathlib.Tactic.Ring

namespace FullTextQuery.Decimal

/-!
# Values of decimals and of numerals

Every layout of a decimal is read as a numeral of the same value: a layout
moves the point and adds zeros and an exponent, and reading takes them in again.
-/

/-- Digits spell the number that the standard reading of digits gives. -/
theorem ofDigits_eq_ofDigitChars
    (ds : List Char) :
    ofDigits ds = Nat.ofDigitChars 10 ds 0 := by
  unfold ofDigits Nat.ofDigitChars digitValue
  congr 1
  funext value c
  rw [Nat.mul_comm]

/-- The digits of a number spell it. -/
@[simp] theorem ofDigits_digits
    (n : Nat) :
    ofDigits (digits n) = n := by
  rw [ofDigits_eq_ofDigitChars, digits, Nat.ofDigitChars_ten_toDigits]

/-- Digits on the left stand for higher powers of ten. -/
theorem ofDigits_append
    (left right : List Char) :
    ofDigits (left ++ right) = ofDigits left * 10 ^ right.length + ofDigits right := by
  simp only [ofDigits_eq_ofDigitChars, Nat.ofDigitChars_append]
  rw [Nat.ofDigitChars_eq_ofDigitChars_zero, Nat.mul_comm]

@[simp] theorem ofDigits_replicate_zero
    (count : Nat) :
    ofDigits (List.replicate count '0') = 0 := by
  rw [ofDigits_eq_ofDigitChars, Nat.ofDigitChars_replicate_zero, Nat.mul_zero]

/-- A digit of the reader is a digit of the standard library. -/
theorem isDigit_eq
    (c : Char) :
    isDigit c = c.isDigit := by
  have toNat : c.toNat = c.val.toNat := rfl
  simp only [isDigit, Char.isDigit, toNat, ge_iff_le, UInt32.le_iff_toNat_le]
  rfl

/-- The digits of a number are digits. -/
theorem isDigit_of_mem_digits
    {n : Nat}
    {c : Char}
    (member : c ∈ digits n) :
    isDigit c = true := by
  rw [isDigit_eq]
  exact Nat.isDigit_of_mem_toDigits (by decide) (by decide) member

namespace Scientific

/-- The value of a decimal. -/
def value
    (d : Scientific) :
    ℚ :=
  ofDigits d.digits * 10 ^ (d.power - (d.digits.length - 1 : Nat))

/-- Stripping drops final zeros and nothing else. -/
theorem exists_stripZeros_append
    (ds : List Char) :
    ∃ count, ds = stripZeros ds ++ List.replicate count '0' := by
  refine ⟨(ds.reverse.takeWhile (· == '0')).length, ?_⟩
  have zeros : ds.reverse.takeWhile (· == '0') =
      List.replicate (ds.reverse.takeWhile (· == '0')).length '0' := by
    refine List.eq_replicate_of_mem fun c member => ?_
    simpa using List.mem_takeWhile_imp member
  calc ds = (ds.reverse.takeWhile (· == '0') ++ ds.reverse.dropWhile (· == '0')).reverse := by
        rw [List.takeWhile_append_dropWhile, List.reverse_reverse]
    _ = stripZeros ds ++ (ds.reverse.takeWhile (· == '0')).reverse := by
        rw [List.reverse_append, stripZeros]
    _ = _ := by
        rw [zeros, List.reverse_replicate, List.length_replicate]

/-- A positive number keeps a digit when its final zeros are stripped. -/
theorem stripZeros_digits_ne_nil
    {n : Nat}
    (positive : 0 < n) :
    stripZeros (Decimal.digits n) ≠ [] := by
  intro empty
  obtain ⟨count, shape⟩ := exists_stripZeros_append (Decimal.digits n)
  have spelled := ofDigits_digits n
  rw [shape, empty, List.nil_append, ofDigits_replicate_zero] at spelled
  omega

/-- The decimal of a positive mantissa has the value that it was made from. -/
theorem value_ofNat
    {mantissa : Nat}
    (positive : 0 < mantissa)
    (scale : Int) :
    (ofNat mantissa scale).value = mantissa * 10 ^ scale := by
  obtain ⟨count, shape⟩ := exists_stripZeros_append (Decimal.digits mantissa)
  have someDigit := List.length_pos_iff.mpr (stripZeros_digits_ne_nil positive)
  have spelled := ofDigits_digits mantissa
  have length := congrArg List.length shape
  rw [shape, ofDigits_append, ofDigits_replicate_zero, Nat.add_zero] at spelled
  simp only [List.length_append, List.length_replicate] at spelled length
  simp only [value, ofNat]
  have power : scale + ((Decimal.digits mantissa).length - 1 : Nat) -
      ((stripZeros (Decimal.digits mantissa)).length - 1 : Nat) = scale + count := by
    omega
  have asRational : (ofDigits (stripZeros (Decimal.digits mantissa)) : ℚ) * 10 ^ count =
      mantissa := by
    exact_mod_cast spelled
  rw [power, zpow_add₀ (by norm_num), ← asRational, zpow_natCast]
  ring

end Scientific

/-- The value of a numeral. -/
def Numeral.value
    (n : Numeral) :
    ℚ :=
  n.mantissa * 10 ^ n.scale

/-- Whether nothing at the front of a text could continue a numeral. -/
abbrev EndsNumeral
    (rest : List Char) :
    Prop :=
  Text.Stops (fun c => isDigit c || c == '.' || c == 'e' || c == 'E') rest

theorem EndsNumeral.stopsDigits
    {rest : List Char}
    (ends : EndsNumeral rest) :
    Text.Stops isDigit rest := by
  cases rest with
  | nil => exact Text.stops_nil
  | cons c others =>
      rw [EndsNumeral, Text.stops_cons] at ends
      exact Text.stops_cons.mpr (by simp_all)

/-- A numeral without an exponent, and the text behind it with an exponent taken off. -/
def withExponent
    (plain : Numeral)
    (pointed : Bool)
    (rest : List Char) :
    Numeral × Bool × List Char :=
  match rest with
  | c :: tail =>
      if c = 'e' ∨ c = 'E' then
        match exponent? tail with
        | some (power, after) => ({ plain with scale := plain.scale + power }, true, after)
        | none => (plain, pointed, rest)
      else
        (plain, pointed, rest)
  | [] => (plain, pointed, rest)

/-- Reading decides on an exponent last. -/
theorem some_withExponent
    (plain : Numeral)
    (pointed : Bool)
    (rest : List Char) :
    (match rest with
      | c :: tail =>
          if c = 'e' ∨ c = 'E' then
            match exponent? tail with
            | some (power, after) =>
                some ({ plain with scale := plain.scale + power }, true, after)
            | none => some (plain, pointed, rest)
          else
            some (plain, pointed, rest)
      | [] => some (plain, pointed, rest)) = some (withExponent plain pointed rest) := by
  unfold withExponent
  rcases rest with _ | ⟨c, tail⟩
  · rfl
  · by_cases mark : c = 'e' ∨ c = 'E'
    · simp only [mark, ↓reduceIte]
      cases exponent? tail <;> rfl
    · simp [mark]

section Reading

variable {whole fraction rest : List Char}

/-- Digits without a point are read, then an exponent. -/
theorem numeral?_whole
    (someDigit : whole ≠ [])
    (allDigits : ∀ c ∈ whole, isDigit c = true)
    (stops : Text.Stops (fun c => isDigit c || c == '.') rest) :
    numeral? (whole ++ rest) = some (withExponent ⟨whole, 0⟩ false rest) := by
  have stopsDigits : Text.Stops isDigit rest := by
    intro c front
    have := stops c front
    simp_all
  have noPoint : ∀ tail, rest ≠ '.' :: tail := by
    rintro tail rfl
    simp at stops
  have notEmpty : whole.isEmpty = false := by simpa using someDigit
  unfold numeral?
  rw [Text.takeWhile_run allDigits stopsDigits, Text.dropWhile_run allDigits stopsDigits]
  rcases rest with _ | ⟨c, tail⟩
  · simp [notEmpty, withExponent]
  · have notPoint : c ≠ '.' := fun isPoint => noPoint tail (by rw [isPoint])
    simp only [notEmpty, Bool.false_and, Bool.false_eq_true, ↓reduceIte, List.append_nil,
      List.length_nil, Int.natCast_zero, Int.neg_zero]
    exact some_withExponent ⟨whole, 0⟩ false (c :: tail)

/-- Digits with a point are read, then an exponent. -/
theorem numeral?_pointed
    (someDigit : whole ≠ [])
    (wholeDigits : ∀ c ∈ whole, isDigit c = true)
    (fractionDigits : ∀ c ∈ fraction, isDigit c = true)
    (stops : Text.Stops isDigit rest) :
    numeral? (whole ++ '.' :: (fraction ++ rest)) =
      some (withExponent ⟨whole ++ fraction, -(fraction.length : Int)⟩ true rest) := by
  have pointStops : Text.Stops isDigit ('.' :: (fraction ++ rest)) :=
    Text.stops_cons.mpr (by decide)
  have notEmpty : whole.isEmpty = false := by simpa using someDigit
  unfold numeral?
  rw [Text.takeWhile_run wholeDigits pointStops, Text.dropWhile_run wholeDigits pointStops]
  simp only [Text.takeWhile_run fractionDigits stops, Text.dropWhile_run fractionDigits stops,
    notEmpty, Bool.false_and, Bool.false_eq_true, ↓reduceIte]
  exact some_withExponent _ _ _

/-- What ends a numeral has no exponent in front. -/
theorem withExponent_of_ends
    (ends : EndsNumeral rest)
    (plain : Numeral)
    (pointed : Bool) :
    withExponent plain pointed rest = (plain, pointed, rest) := by
  unfold withExponent
  split
  · rename_i c tail
    rw [EndsNumeral, Text.stops_cons] at ends
    rw [if_neg (by simp_all)]
  · rfl

/-- The text of an integer is read as an exponent. -/
theorem exponent?_ofInt
    (power : Int)
    (stops : Text.Stops isDigit rest) :
    exponent? ((ofInt power).toList ++ rest) = some (power, rest) := by
  have digitsRead : ∀ negative (n : Nat), exponent?.takeExponent negative (digits n ++ rest) =
      some (if negative then -(n : Int) else n, rest) := by
    intro negative n
    have all : ∀ c ∈ digits n, isDigit c = true := fun c => isDigit_of_mem_digits
    unfold exponent?.takeExponent
    rw [Text.takeWhile_run all stops, Text.dropWhile_run all stops]
    have someDigit : digits n ≠ [] := Nat.toDigits_ne_nil
    split
    · contradiction
    · rename_i shape
      simp [ofDigits_digits]
  unfold ofInt
  rw [String.toList_ofList]
  by_cases isNegative : power < 0
  · rw [if_pos isNegative, List.cons_append, exponent?, digitsRead]
    simp only [↓reduceIte, Option.some.injEq, Prod.mk.injEq, and_true]
    omega
  · rw [if_neg isNegative]
    have front : exponent? (digits power.natAbs ++ rest) =
        exponent?.takeExponent false (digits power.natAbs ++ rest) := by
      obtain ⟨c, others, shape⟩ := List.exists_cons_of_ne_nil
        (Nat.toDigits_ne_nil (n := power.natAbs) (b := 10))
      have isDigitFront : isDigit c = true :=
        isDigit_of_mem_digits (n := power.natAbs) (by rw [digits, shape]; simp)
      rw [digits, shape, List.cons_append, exponent?]
      · intro others' sign
        obtain rfl := (List.cons.inj sign).1
        exact absurd isDigitFront (by decide)
      · intro others' sign
        obtain rfl := (List.cons.inj sign).1
        exact absurd isDigitFront (by decide)
    rw [front, digitsRead]
    simp only [Bool.false_eq_true, ↓reduceIte, Option.some.injEq, Prod.mk.injEq, and_true]
    omega

/-- The exponent behind a numeral is taken off. -/
theorem withExponent_ofInt
    (plain : Numeral)
    (pointed : Bool)
    (power : Int)
    (stops : Text.Stops isDigit rest) :
    withExponent plain pointed ('e' :: ((ofInt power).toList ++ rest)) =
      ({ plain with scale := plain.scale + power }, true, rest) := by
  simp [withExponent, exponent?_ofInt power stops]

end Reading

namespace Scientific

/-- A decimal has digits, and only digits. -/
structure Proper
    (d : Scientific) :
    Prop where
  someDigit : d.digits ≠ []
  allDigits : ∀ c ∈ d.digits, isDigit c = true

/-- The decimal of a positive mantissa is proper. -/
theorem proper_ofNat
    {mantissa : Nat}
    (positive : 0 < mantissa)
    (scale : Int) :
    (ofNat mantissa scale).Proper where
  someDigit := stripZeros_digits_ne_nil positive
  allDigits := by
    intro c member
    obtain ⟨count, shape⟩ := exists_stripZeros_append (Decimal.digits mantissa)
    refine isDigit_of_mem_digits (n := mantissa) ?_
    rw [shape]
    exact List.mem_append_left _ member

section Layouts

variable {d : Scientific}

theorem wholeDigits_ne_nil
    (proper : d.Proper) :
    d.wholeDigits ≠ [] := by
  unfold wholeDigits
  split
  · simp
  · have := List.length_pos_iff.mpr proper.someDigit
    rw [← List.length_pos_iff]
    simp only [List.length_append, List.length_take, List.length_replicate]
    omega

theorem isDigit_of_mem_wholeDigits
    (proper : d.Proper)
    {c : Char}
    (member : c ∈ d.wholeDigits) :
    isDigit c = true := by
  unfold wholeDigits at member
  split at member
  · obtain rfl := List.mem_singleton.mp member
    decide
  · rcases List.mem_append.mp member with taken | zero
    · exact proper.allDigits c (List.mem_of_mem_take taken)
    · obtain rfl := List.eq_of_mem_replicate zero
      decide

theorem isDigit_of_mem_fractionDigits
    (proper : d.Proper)
    {c : Char}
    (member : c ∈ d.fractionDigits) :
    isDigit c = true := by
  unfold fractionDigits at member
  split at member
  · rcases List.mem_append.mp member with zero | digit
    · obtain rfl := List.eq_of_mem_replicate zero
      decide
    · exact proper.allDigits c digit
  · exact proper.allDigits c (List.mem_of_mem_drop member)

/-- The digits behind the point, where there is always one. -/
def pointedFraction
    (d : Scientific) :
    List Char :=
  if d.fractionDigits = [] then ['0'] else d.fractionDigits

theorem pointed_eq
    (d : Scientific) :
    d.pointed = d.wholeDigits ++ '.' :: d.pointedFraction := by
  unfold pointed pointedFraction
  split
  · rename_i none
    simp [none]
  · rename_i some
    rw [if_neg some]

/-- The positional digits have the value of the decimal. -/
theorem value_pointed
    (proper : d.Proper) :
    Numeral.value ⟨d.wholeDigits ++ d.pointedFraction, -(d.pointedFraction.length : Int)⟩ =
      d.value := by
  have someDigit := List.length_pos_iff.mpr proper.someDigit
  simp only [Numeral.value, Numeral.mantissa, value, pointedFraction]
  by_cases small : d.power < 0
  · have fraction : d.fractionDigits =
        List.replicate (-d.power - 1).toNat '0' ++ d.digits := if_pos small
    have whole : d.wholeDigits = List.replicate 1 '0' := if_pos small
    have notEmpty : d.fractionDigits ≠ [] := by
      rw [fraction]
      simp [proper.someDigit]
    rw [if_neg notEmpty, fraction, whole]
    simp only [ofDigits_append, ofDigits_replicate_zero, List.length_append,
      List.length_replicate, Nat.zero_mul, Nat.zero_add]
    congr 2
    omega
  · have whole : d.wholeDigits = d.digits.take (d.power.toNat + 1) ++
        List.replicate (d.power.toNat + 1 - d.digits.length) '0' := if_neg small
    have fraction : d.fractionDigits = d.digits.drop (d.power.toNat + 1) := if_neg small
    rw [whole, fraction]
    by_cases isInteger : d.digits.length ≤ d.power.toNat + 1
    · have zero : ofDigits ['0'] = 0 := by decide
      rw [List.drop_eq_nil_of_le isInteger, List.take_of_length_le isInteger, if_pos rfl]
      simp only [ofDigits_append, ofDigits_replicate_zero, List.length_replicate, zero,
        List.length_singleton, Nat.add_zero, pow_one, Nat.cast_mul, Nat.cast_pow,
        Nat.cast_ofNat, Nat.cast_one]
      have power : d.power - (d.digits.length - 1 : Nat) =
          (d.power.toNat + 1 - d.digits.length : Nat) := by
        omega
      rw [power, zpow_natCast, zpow_neg_one]
      field_simp
    · have notEmpty : d.digits.drop (d.power.toNat + 1) ≠ [] := by
        rw [ne_eq, List.drop_eq_nil_iff]
        exact isInteger
      have noZeros : d.power.toNat + 1 - d.digits.length = 0 := by omega
      rw [if_neg notEmpty, noZeros, List.replicate_zero, List.append_nil,
        List.take_append_drop, List.length_drop]
      congr 2
      omega

/-- The positional layout is read as a pointed numeral of the same value. -/
theorem numeral?_pointed
    (proper : d.Proper) :
    ∃ numeral : Numeral, numeral.value = d.value ∧
      ∀ rest, EndsNumeral rest → numeral? (d.pointed ++ rest) = some (numeral, true, rest) := by
  have fractionDigits : ∀ c ∈ d.pointedFraction, isDigit c = true := by
    intro c member
    unfold pointedFraction at member
    split at member
    · obtain rfl := List.mem_singleton.mp member
      decide
    · exact isDigit_of_mem_fractionDigits proper member
  refine ⟨_, value_pointed proper, fun rest ends => ?_⟩
  rw [pointed_eq, List.append_assoc, List.cons_append,
    Decimal.numeral?_pointed (wholeDigits_ne_nil proper)
      (fun c => isDigit_of_mem_wholeDigits proper) fractionDigits ends.stopsDigits,
    withExponent_of_ends ends]

/-- The layout with an exponent is read as a pointed numeral of the same value. -/
theorem numeral?_exponential
    (proper : d.Proper) :
    ∃ numeral : Numeral, numeral.value = d.value ∧
      ∀ rest, EndsNumeral rest →
        numeral? (d.exponential (ofInt d.power).toList ++ rest) = some (numeral, true, rest) := by
  obtain ⟨first, others, shape⟩ := List.exists_cons_of_ne_nil proper.someDigit
  have allDigits := proper.allDigits
  rw [shape, List.forall_mem_cons] at allDigits
  obtain ⟨firstDigit, otherDigits⟩ := allDigits
  have firstOnly : ∀ c ∈ [first], isDigit c = true := by simpa using firstDigit
  have exponentStops : ∀ tail, Text.Stops isDigit ('e' :: tail) := fun tail =>
    Text.stops_cons.mpr (by decide)
  rcases others with _ | ⟨second, others⟩
  · refine ⟨⟨[first], 0 + d.power⟩, ?_, fun rest ends => ?_⟩
    · simp [Numeral.value, Numeral.mantissa, value, shape]
    · have layout : d.exponential (ofInt d.power).toList ++ rest =
          [first] ++ 'e' :: ((ofInt d.power).toList ++ rest) := by
        simp [exponential, shape]
      rw [layout, numeral?_whole (by simp) firstOnly (Text.stops_cons.mpr (by decide)),
        withExponent_ofInt _ _ _ ends.stopsDigits]
  · refine ⟨⟨[first] ++ second :: others, -((second :: others).length : Int) + d.power⟩, ?_,
      fun rest ends => ?_⟩
    · simp only [Numeral.value, Numeral.mantissa, value, shape, List.singleton_append,
        List.length_cons]
      congr 2
      omega
    · have layout : d.exponential (ofInt d.power).toList ++ rest =
          [first] ++ '.' :: ((second :: others) ++ 'e' :: ((ofInt d.power).toList ++ rest)) := by
        simp [exponential, shape]
      rw [layout, Decimal.numeral?_pointed (by simp) firstOnly otherDigits (exponentStops _),
        withExponent_ofInt _ _ _ ends.stopsDigits]

end Layouts

end Scientific

end FullTextQuery.Decimal
