import FullTextQuery.Proofs.Query.Matching
import FullTextQuery.Proofs.Query.Units

namespace FullTextQuery.Query

/-!
# Texts laid out anew

Two texts with the same units are read side by side.  A matcher keeps what it does if
at corresponding places it fails in both texts, or takes as many units off both, with
related values.  Layout is inserted only in front of units, so behind layout both
texts always stand at the same unit, at the end, or inside a unit that the grammar has
already given up.
-/

open Matcher

variable {cs cs' rest rest' : List Char}

/-- Whether a call of a function is at the front of a text. -/
def IsCall
    (cs : List Char) :
    Prop :=
  ((Grammar.call Grammar.expr cs).matched?).isSome = true

/-- Whether a word may be written in any case: a keyword, or the name of a function. -/
def IsCaseless
    (word rest : List Char) :
    Prop :=
  word.map Char.toLower ∈ reservedWords ∨ IsCall (word ++ rest)

/--
A text is laid out anew: layout is inserted in front of it and immediately behind its
units, and keywords and names of functions are written in another case.
-/
inductive Relaid : List Char → List Char → Prop where
  | ends {new gap : List Char} :
      IsLayout new → skipLayout .between gap = [] → Relaid gap (new ++ gap)
  | unit {new gap unit rest rest' : List Char} {kind : UnitKind} :
      IsLayout new → IsLayout gap → IsUnit kind unit rest → Relaid rest rest' →
        Relaid (gap ++ (unit ++ rest)) (new ++ (gap ++ (unit ++ rest')))
  | recased {new gap word word' rest rest' : List Char} :
      IsLayout new → IsLayout gap → IsWord word → Text.Stops isNameChar rest →
        IsCaseless word rest → word'.map Char.toLower = word.map Char.toLower →
          Relaid rest rest' →
            Relaid (gap ++ (word ++ rest)) (new ++ (gap ++ (word' ++ rest')))

/-- Places at which the same unit begins, the texts end, or a unit has been left. -/
inductive Aligned : List Char → List Char → Prop where
  | ends : Aligned [] []
  | unit {unit rest rest' : List Char} {kind : UnitKind} :
      IsUnit kind unit rest → Relaid rest rest' → Aligned (unit ++ rest) (unit ++ rest')
  | recased {word word' rest rest' : List Char} :
      IsWord word → Text.Stops isNameChar rest → IsCaseless word rest →
        word'.map Char.toLower = word.map Char.toLower → Relaid rest rest' →
          Aligned (word ++ rest) (word' ++ rest')
  | point {rest rest' : List Char} : Aligned ('.' :: rest) ('.' :: rest')

/-- Places that are aligned behind layout. -/
def AlignedBehind
    (cs cs' : List Char) :
    Prop :=
  Aligned (skipLayout .between cs) (skipLayout .between cs')

/-- The front of a text decides how it begins. -/
theorem stops_append_iff
    {front : List Char}
    {kind : Char → Bool}
    (someChar : front ≠ []) :
    Text.Stops kind (front ++ rest) ↔ Text.Stops kind front := by
  obtain ⟨c, others, rfl⟩ := List.exists_cons_of_ne_nil someChar
  simp

/-- How a text begins does not depend on its case for a kind that both cases are of. -/
theorem stops_map_toLower_iff
    {kind : Char → Bool}
    (caseless : ∀ c, kind c.toLower = kind c) :
    Text.Stops kind (cs.map Char.toLower) ↔ Text.Stops kind cs := by
  cases cs <;> simp [caseless]

theorem beq_toLower
    {c : Char}
    (noLetter : c.isAlpha = false)
    (d : Char) :
    (d.toLower == c) = (d == c) := by
  by_cases upper : d.isUpper = true
  · have isLetter : d.isAlpha = true := by simp [Char.isAlpha, upper]
    have staysLetter : d.toLower.isAlpha = true := by simpa using isLetter
    rw [beq_eq_false_iff_ne.mpr (ne_of_kind staysLetter noLetter),
      beq_eq_false_iff_ne.mpr (ne_of_kind isLetter noLetter)]
  · rw [Char.toLower_eq_of_not_isUpper upper]

namespace Relaid

variable {kind : Char → Bool}

/-- What does not go on in one text does not go on in the other either. -/
theorem stops
    (relaid : Relaid rest rest')
    (noLayout : [' ', '\t', '\r', '\n', '/', '-'].all fun c => !kind c)
    (caseless : ∀ c, kind c.toLower = kind c)
    (stops : Text.Stops kind rest) :
    Text.Stops kind rest' := by
  cases relaid with
  | ends complete => exact complete.stops_append noLayout stops
  | unit complete _ isUnit =>
      refine complete.stops_append noLayout ?_
      rw [← List.append_assoc, stops_append_iff (by simp [isUnit.ne_nil])] at stops ⊢
      exact stops
  | recased complete _ isWord _ _ lowered =>
      refine complete.stops_append noLayout ?_
      have isWord' := isWord.recased lowered
      rw [← List.append_assoc, stops_append_iff (by simp [isWord.ne_nil]),
        ← stops_map_toLower_iff caseless, List.map_append] at stops
      rw [← List.append_assoc, stops_append_iff (by simp [isWord'.ne_nil]),
        ← stops_map_toLower_iff caseless, List.map_append, lowered]
      exact stops

/-- Where no name goes on, none goes on in the text relaid. -/
theorem noName
    (relaid : Relaid rest rest')
    (stops : Text.Stops isNameChar rest) :
    Text.Stops isNameChar rest' :=
  relaid.stops rfl isNameChar_toLower stops

/-- Where no number goes on, none goes on in the text relaid. -/
theorem noDigit
    (relaid : Relaid rest rest')
    (stops : Text.Stops Decimal.isDigit rest) :
    Text.Stops Decimal.isDigit rest' :=
  relaid.stops rfl isDigit_toLower stops

/-- A character that is no letter and begins no layout does not go on either. -/
theorem noChar
    (relaid : Relaid rest rest')
    {c : Char}
    (noLetter : c.isAlpha = false)
    (noLayout : [' ', '\t', '\r', '\n', '/', '-'].all fun d => !(d == c))
    (stops : Text.Stops (· == c) rest) :
    Text.Stops (· == c) rest' :=
  relaid.stops noLayout (beq_toLower noLetter) stops

/-- No point follows a unit. -/
theorem noPoint
    (relaid : Relaid rest rest') :
    Text.Stops (· == '.') rest := by
  cases relaid with
  | ends _ nothing =>
      rw [Text.stops_beq_iff]
      rintro others rfl
      rw [skipLayout_of_bare] at nothing
      · cases nothing
      · exact (Opens.visible rfl (by decide) (by decide)).bare
  | unit _ complete isUnit => exact complete.stops_append rfl (isUnit.stops rfl _)
  | recased _ complete isWord stops =>
      exact complete.stops_append rfl ((isWord.isUnit stops).stops rfl _)

/-- No point follows a unit in the other text. -/
theorem noPoint'
    (relaid : Relaid rest rest') :
    Text.Stops (· == '.') rest' :=
  relaid.noChar rfl rfl relaid.noPoint

/-- Texts laid out anew are aligned behind layout. -/
theorem alignedBehind
    (relaid : Relaid cs cs') :
    AlignedBehind cs cs' := by
  unfold AlignedBehind
  cases relaid with
  | ends complete nothing =>
      rw [complete.skipLayout_append, nothing]
      exact .ends
  | unit complete completeGap isUnit relaid =>
      rw [complete.skipLayout_append, completeGap.skipLayout_append,
        completeGap.skipLayout_append, isUnit.skipLayout_append, isUnit.skipLayout_append]
      exact .unit isUnit relaid
  | recased complete completeGap isWord stops caseless lowered relaid =>
      have isUnit := isWord.isUnit stops
      have isUnit' := (isWord.recased lowered).isUnit (relaid.noName stops)
      rw [complete.skipLayout_append, completeGap.skipLayout_append,
        completeGap.skipLayout_append, isUnit.skipLayout_append, isUnit'.skipLayout_append]
      exact .recased isWord stops caseless lowered relaid

end Relaid

namespace Aligned

theorem skipLayout_eq
    (aligned : Aligned cs cs') :
    skipLayout .between cs = cs ∧ skipLayout .between cs' = cs' := by
  have point : ∀ others, skipLayout .between ('.' :: others) = '.' :: others := fun others =>
    skipLayout_of_bare (Opens.visible rfl (by decide) (by decide)).bare
  cases aligned with
  | ends => exact ⟨rfl, rfl⟩
  | unit isUnit => exact ⟨isUnit.skipLayout_append _, isUnit.skipLayout_append _⟩
  | recased isWord stops _ lowered relaid =>
      have isUnit' := (isWord.recased lowered).isUnit (relaid.noName stops)
      exact ⟨(isWord.isUnit stops).skipLayout_append _, isUnit'.skipLayout_append _⟩
  | point => exact ⟨point _, point _⟩

/-- Aligned places begin with no layout. -/
theorem behind
    (aligned : Aligned cs cs') :
    AlignedBehind cs cs' := by
  unfold AlignedBehind
  rwa [aligned.skipLayout_eq.1, aligned.skipLayout_eq.2]

end Aligned

end FullTextQuery.Query
