import FullTextQuery.Proofs.Database.RunOrder
import FullTextQuery.Proofs.Meaning.Run
import FullTextQuery.Proofs.Service.Decoding

/-!
# Which texts are keys

A text is the key of an integer property exactly if what is left of it without the white
space at its ends is digits behind at most one sign, and the number that they spell has 64
bits.  How many digits there are does not matter: no number is taken for another one.  What
a search step keeps are the values of the service's keys, all of the kind of its own key.
-/

namespace FullTextQuery

namespace Text

/-- A text, and what is left of it once the white space at both ends is cut off. -/
structure Trims
    (cs core : List Char) :
    Prop where
  between : ∃ front back, cs = front ++ (core ++ back) ∧
    (∀ c ∈ front, isBlank c = true) ∧ ∀ c ∈ back, isBlank c = true
  begins : Stops isBlank core
  ends : Stops isBlank core.reverse

/-- Cutting off white space leaves what stands between the white space at the ends. -/
theorem trimBlanks_eq_iff
    {cs core : List Char} :
    trimBlanks cs = core ↔ Trims cs core := by
  constructor
  · rintro rfl
    have behindFront : cs.dropWhile isBlank =
        trimBlanks cs ++ ((cs.dropWhile isBlank).reverse.takeWhile isBlank).reverse := by
      rw [trimBlanks, ← List.reverse_append, List.takeWhile_append_dropWhile, List.reverse_reverse]
    refine ⟨⟨cs.takeWhile isBlank, ((cs.dropWhile isBlank).reverse.takeWhile isBlank).reverse,
      ?_, ?_, ?_⟩, ?_, ?_⟩
    · rw [← behindFront, List.takeWhile_append_dropWhile]
    · exact fun c member => List.mem_takeWhile_imp member
    · exact fun c member => List.mem_takeWhile_imp (List.mem_reverse.mp member)
    · intro c isHead
      refine stops_dropWhile cs c ?_
      rw [behindFront, List.head?_append, Option.mem_def.mp isHead]
      rfl
    · rw [trimBlanks, List.reverse_reverse]
      exact stops_dropWhile _
  · rintro ⟨⟨front, back, rfl, frontBlank, backBlank⟩, begins, ends⟩
    cases core with
    | nil =>
        have allBlank : ∀ c ∈ front ++ back, isBlank c = true := by
          simpa [or_imp, forall_and] using ⟨frontBlank, backBlank⟩
        rw [trimBlanks, List.nil_append, List.dropWhile_eq_nil_iff.mpr allBlank]
        rfl
    | cons c others =>
        have stops : Stops isBlank (c :: others ++ back) :=
          stops_cons.mpr (stops_cons.mp begins)
        have reversedBlank : ∀ c ∈ back.reverse, isBlank c = true := by simpa using backBlank
        rw [trimBlanks, dropWhile_run frontBlank stops, List.reverse_append,
          dropWhile_run reversedBlank ends, List.reverse_reverse]

end Text

namespace Decimal

open Query

/-- The number that digits spell: each counts ten times as much as in the next place. -/
def placeValue : List Char → Nat
  | [] => 0
  | c :: cs => digitValue c * 10 ^ cs.length + placeValue cs

theorem ofDigits_eq_placeValue
    (cs : List Char) :
    ofDigits cs = placeValue cs := by
  induction cs with
  | nil => rfl
  | cons c cs inductionHypothesis =>
      have first : ofDigits [c] = digitValue c := by simp [ofDigits]
      rw [← List.singleton_append, ofDigits_append, first, inductionHypothesis]
      rfl

/-- At most one sign and at least one digit, and the integer that they spell. -/
inductive Spells : List Char → Int → Prop where
  | unsigned {digits : List Char} : IsDigits digits → Spells digits (placeValue digits)
  | plus {digits : List Char} : IsDigits digits → Spells ('+' :: digits) (placeValue digits)
  | minus {digits : List Char} : IsDigits digits → Spells ('-' :: digits) (-placeValue digits)

theorem natural?_eq_some_iff
    {cs : List Char}
    {n : Nat} :
    natural? cs = some n ↔ IsDigits cs ∧ placeValue cs = n := by
  constructor
  · intro isRead
    rw [natural?, Option.ite_none_left_eq_some] at isRead
    obtain ⟨proper, isValue⟩ := isRead
    simp only [Bool.or_eq_true, List.isEmpty_iff, Bool.not_eq_eq_eq_not, Bool.not_true, not_or,
      Bool.not_eq_false, List.all_eq_true] at proper
    exact ⟨⟨proper.1, proper.2⟩, by rw [← ofDigits_eq_placeValue, Option.some.inj isValue]⟩
  · rintro ⟨proper, rfl⟩
    rw [natural?_eq proper, ofDigits_eq_placeValue]

/-- A text is read as the integer that it spells, and as nothing else. -/
theorem integer?_eq_some_iff
    {cs : List Char}
    {n : Int} :
    integer? cs = some n ↔ Spells cs n := by
  constructor
  · intro isRead
    unfold integer? at isRead
    split at isRead
    · obtain ⟨value, isNatural, rfl⟩ := Option.map_eq_some_iff.mp isRead
      obtain ⟨proper, rfl⟩ := natural?_eq_some_iff.mp isNatural
      exact .plus proper
    · simp only [Option.map_eq_some_iff, Option.bind_eq_bind, Option.bind_eq_some_iff,
        Option.pure_def, Option.some.injEq] at isRead
      obtain ⟨_, ⟨value, isNatural, rfl⟩, rfl⟩ := isRead
      obtain ⟨proper, rfl⟩ := natural?_eq_some_iff.mp isNatural
      exact .minus proper
    · obtain ⟨value, isNatural, rfl⟩ := Option.map_eq_some_iff.mp isRead
      obtain ⟨proper, rfl⟩ := natural?_eq_some_iff.mp isNatural
      exact .unsigned proper
  · intro spells
    cases spells with
    | unsigned proper =>
        rw [integer?.eq_3 _ (digits_ne_sign proper (by decide)) (digits_ne_sign proper (by decide)),
          natural?_eq_some_iff.mpr ⟨proper, rfl⟩]
        rfl
    | plus proper =>
        rw [integer?, natural?_eq_some_iff.mpr ⟨proper, rfl⟩]
        rfl
    | minus proper =>
        rw [integer?, natural?_eq_some_iff.mpr ⟨proper, rfl⟩]
        rfl

/-- A number of 64 bits is made of an integer only if it is that integer. -/
theorem int64OfInt?_eq_some_iff
    {n : Int}
    {k : Int64} :
    int64OfInt? n = some k ↔ k.toInt = n := by
  unfold int64OfInt?
  constructor
  · intro isMade
    obtain ⟨⟨lowest, greatest⟩, same⟩ := Option.ite_none_right_eq_some.mp isMade
    obtain rfl := Option.some.inj same
    exact Int64.toInt_ofInt_of_le lowest greatest
  · rintro rfl
    have lowest := Int64.le_toInt k
    have greatest := Int64.toInt_lt k
    rw [if_pos (by omega), Int64.ofInt_toInt]

theorem int64?_eq_some_iff
    {cs : List Char}
    {k : Int64} :
    int64? cs = some k ↔ Spells cs k.toInt := by
  rw [int64?, Option.bind_eq_some_iff]
  simp only [integer?_eq_some_iff, int64OfInt?_eq_some_iff]
  constructor
  · rintro ⟨n, spells, rfl⟩
    exact spells
  · exact fun spells => ⟨_, spells, rfl⟩

end Decimal

namespace Value

open Decimal Text

/-- Whether a text spells an integer, with any white space around it. -/
def SpellsKey
    (raw : String)
    (n : Int) :
    Prop :=
  ∃ core, Trims raw.toList core ∧ Spells core n

/-- The value of an integer key is the number of 64 bits that its text spells. -/
theorem ofKey_integer_eq_ok_iff
    {raw : String}
    {k : Int64} :
    ofKey raw .integer = .ok (.integer k) ↔ SpellsKey raw k.toInt := by
  have isSpelled : SpellsKey raw k.toInt ↔ int64? (trimBlanks raw.toList) = some k := by
    simp only [SpellsKey, ← trimBlanks_eq_iff, exists_eq_left', int64?_eq_some_iff]
  rw [isSpelled, ofKey]
  cases int64? (trimBlanks raw.toList) <;> simp

/-- A text that is no integer key is refused with its own words. -/
theorem ofKey_integer_eq_error_iff
    {raw : String} :
    ofKey raw .integer = .error (.invalidIntegerKey raw) ↔
      ∀ k : Int64, ¬ SpellsKey raw k.toInt := by
  simp only [← ofKey_integer_eq_ok_iff]
  rw [ofKey]
  cases int64? (trimBlanks raw.toList) <;> simp

/-- What becomes of the keys that a search service hands back. -/
structure ConvertsExactly : Prop where
  /-- The values of integer keys are the numbers of 64 bits that are spelled. -/
  integer : ∀ (raw : String) (n : Int),
    (∃ k : Int64, k.toInt = n ∧ ofKey raw .integer = .ok (.integer k)) ↔
      SpellsKey raw n ∧ -2 ^ 63 ≤ n ∧ n ≤ 2 ^ 63 - 1
  /-- Any other text is refused as an integer key. -/
  refused : ∀ raw : String, (¬ ∃ n : Int, SpellsKey raw n ∧ -2 ^ 63 ≤ n ∧ n ≤ 2 ^ 63 - 1) →
    ofKey raw .integer = .error (.invalidIntegerKey raw)
  /-- The decimal text of every number of 64 bits is its key. -/
  written : ∀ k : Int64, ofKey (ofInt k.toInt) .integer = .ok (.integer k)
  /-- A text key is kept as it is. -/
  text : ∀ raw : String, ofKey raw .text = .ok (.text raw)
  /-- What a search step keeps are the values of the service's keys, of the kind of its key. -/
  kept : ∀ {σ : Type} {step : SearchStep} {service : SearchService σ}
    {context found : RunContext} {world after : σ},
    step.run service context world = (.ok found, after) →
      ∃ phrase keys values, step.text context = .ok phrase ∧
        service.search step.index phrase world = (.ok keys, after) ∧
        List.Forall₂ (fun key value => ofKey key step.keyKind = .ok value) keys values ∧
        found.valueSet step.parameter = .ok values ∧
        ∀ value ∈ values, value.kind? = some step.keyKind

/--
The value of an integer key is the number that its text spells, whatever its length; a text
key is kept, and a search step keeps only values of the kind of its key.
-/
theorem convertsExactly :
    ConvertsExactly where
  integer raw n := by
    constructor
    · rintro ⟨k, rfl, converted⟩
      have lowest := Int64.le_toInt k
      have greatest := Int64.toInt_lt k
      exact ⟨ofKey_integer_eq_ok_iff.mp converted, by omega, by omega⟩
    · rintro ⟨isSpelled, lowest, greatest⟩
      have same : (Int64.ofInt n).toInt = n := Int64.toInt_ofInt_of_le lowest (by omega)
      exact ⟨Int64.ofInt n, same, ofKey_integer_eq_ok_iff.mpr (same.symm ▸ isSpelled)⟩
  refused raw noKey := by
    refine ofKey_integer_eq_error_iff.mpr fun k isSpelled => noKey ⟨k.toInt, isSpelled, ?_⟩
    have lowest := Int64.le_toInt k
    have greatest := Int64.toInt_lt k
    exact ⟨by omega, by omega⟩
  written := ofKey_ofInt
  text raw := rfl
  kept {σ step service context found world after} succeeded := by
    have goes := SearchStep.goes_iff.mpr ⟨succeeded, rfl⟩
    generalize (step.calls context).map RunEvent.asked = events at goes
    cases goes with
    | @found phrase keys values _ _ isText answered convert puts =>
        refine ⟨phrase, keys, values, isText, answered, convert, puts.here, ?_⟩
        intro value isValue
        obtain ⟨key, _, converted⟩ := List.exists_of_forall₂_right convert isValue
        exact kind?_of_ofKey converted

/-- The least number of 64 bits is a key, with zeros in front; the number below it is none. -/
example :
    ofKey "\t-0009223372036854775808 " .integer = .ok (.integer (-9223372036854775808)) ∧
      ofKey "-9223372036854775809" .integer =
        .error (.invalidIntegerKey "-9223372036854775809") := by
  decide +kernel

end Value

end FullTextQuery
