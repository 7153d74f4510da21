import FullTextQuery.Proofs.Query.CanonicalOperands
import FullTextQuery.Proofs.Query.RelaidOutcomes

namespace FullTextQuery.Query

/-!
# Scanners on texts laid out anew

Each scanner takes the same unit off both texts, or none.  A unit is recognised by its
first character, so a scanner is looked at only on the units of its own kind; words are
the only units that may be written in another case.
-/

open Matcher

variable {α β : Type} {cs cs' rest rest' : List Char} {bound bound' : Nat}

section Cases

variable {motive : List Char → List Char → Prop}

/-- Aligned places at which names begin, or none do. -/
@[elab_as_elim]
theorem Aligned.named
    (aligned : Aligned cs cs')
    (other : ∀ ⦃cs cs'⦄, Aligned cs cs' → Text.Stops isNameStart cs →
      Text.Stops isNameStart cs' → motive cs cs')
    (word : ∀ ⦃word word' rest rest'⦄, IsWord word → Text.Stops isNameChar rest →
      (word' = word ∨ IsCaseless word rest) → word'.map Char.toLower = word.map Char.toLower →
        Relaid rest rest' → motive (word ++ rest) (word' ++ rest'))
    (member : ∀ ⦃item property rest rest'⦄, IsName item → IsName property →
      Text.Stops isNameChar rest → Relaid rest rest' →
        motive (item.toList ++ '.' :: (property.toList ++ rest))
          (item.toList ++ '.' :: (property.toList ++ rest'))) :
    motive cs cs' := by
  cases aligned with
  | ends => exact other .ends Text.stops_nil Text.stops_nil
  | point => exact other .point (by simp [isNameStart]) (by simp [isNameStart])
  | recased isWord stops caseless lowered relaid =>
      exact word isWord stops (.inr caseless) lowered relaid
  | @unit unit rest rest' kind isUnit relaid =>
      obtain ⟨c, others, shape, isKind⟩ := isUnit.exists_head
      by_cases start : isNameStart c = true
      · obtain rfl : kind = .named :=
          Option.some.inj (isKind.symm.trans (kindOf?_of_isNameStart start))
        cases isUnit with
        | word isWord stops => exact word isWord stops (.inl rfl) rfl relaid
        | member isItem isProperty stops =>
            rw [List.append_assoc, List.append_assoc]
            exact member isItem isProperty stops relaid
      · have stops : ∀ more, Text.Stops isNameStart (unit ++ more) := by
          simpa [shape] using start
        exact other (.unit isUnit relaid) (stops rest) (stops rest')

end Cases

/-- The same unit is taken off both texts. -/
theorem SameOutcome.unit
    {related : α → α → Prop}
    {value value' : α}
    {unit unit' : List Char}
    (isRelated : related value value')
    (someChar : unit ≠ [])
    (someChar' : unit' ≠ [])
    (relaid : Relaid rest rest') :
    SameOutcome 1 related (unit ++ rest) (unit' ++ rest') (some (value, rest))
      (some (value', rest')) := by
  have long := List.length_pos_iff.mpr someChar
  have long' := List.length_pos_iff.mpr someChar'
  exact .found isRelated relaid.alignedBehind (by rw [List.length_append]; omega)
    (by rw [List.length_append]; omega)

/-- Values that are related are worked into values that are related. -/
theorem SameOutcome.map
    {related : α → α → Prop}
    {related' : β → β → Prop}
    {least : Nat}
    {answer answer' : Option (α × List Char)}
    {f g : α → β}
    (same : SameOutcome least related cs cs' answer answer')
    (implies : ∀ value value', related value value' → related' (f value) (g value')) :
    SameOutcome least related' cs cs' (answer.map fun found => (f found.1, found.2))
      (answer'.map fun found => (g found.1, found.2)) := by
  cases same with
  | fails => exact .fails
  | found isRelated aligned shorter shorter' =>
      exact .found (implies _ _ isRelated) aligned shorter shorter'

/-- What is taken off at the units of one kind only, which are no names, is looked at there. -/
theorem Aligned.scanned
    {related : α → α → Prop}
    {kind : UnitKind}
    (aligned : Aligned cs cs')
    (scan : List Char → Option (α × List Char))
    (noName : kind ≠ .named)
    (nothing : scan [] = none)
    (other : ∀ ⦃c others⦄, kindOf? c ≠ some kind → scan (c :: others) = none)
    (same : ∀ ⦃unit rest rest'⦄, IsUnit kind unit rest → Relaid rest rest' →
      SameOutcome 1 related (unit ++ rest) (unit ++ rest') (scan (unit ++ rest))
        (scan (unit ++ rest'))) :
    SameOutcome 1 related cs cs' (scan cs) (scan cs') := by
  have fails : ∀ {found : UnitKind} {front before : List Char}, IsUnit found front before →
      found ≠ kind → ∀ more, scan (front ++ more) = none := by
    intro found front before isUnit differs more
    obtain ⟨c, others, rfl, isKind⟩ := isUnit.exists_head
    exact other (by simpa [isKind] using differs)
  cases aligned with
  | ends =>
      rw [nothing]
      exact .fails
  | point =>
      have noUnit : kindOf? '.' ≠ some kind := by simp [show kindOf? '.' = none from rfl]
      rw [other noUnit, other noUnit]
      exact .fails
  | recased isWord stops _ lowered relaid =>
      rw [fails (isWord.isUnit stops) noName.symm,
        fails ((isWord.recased lowered).isUnit (relaid.noName stops)) noName.symm]
      exact .fails
  | @unit front _ _ found isUnit relaid =>
      by_cases isKind : found = kind
      · subst isKind
        exact same isUnit relaid
      · rw [fails isUnit isKind, fails isUnit isKind]
        exact .fails

section Words

variable {word word' keyword : List Char}

/-- A text that begins with no letter and no underscore begins with no keyword. -/
theorem scanWord?_of_noName
    (reserved : keyword ∈ reservedWords)
    (noName : Text.Stops isNameStart cs) :
    scanWord? keyword cs = none := by
  rw [Option.eq_none_iff_forall_ne_some]
  rintro ⟨⟨⟩, rest⟩ found
  obtain ⟨text, rfl, lowered, -⟩ := scanWord?_eq_some_iff.mp found
  obtain ⟨c, others, rfl, start, -⟩ := isWord_of_reserved (lowered ▸ reserved)
  rw [List.cons_append, Text.stops_cons] at noName
  simp [noName] at start

/-- Which keyword a word is does not depend on its case. -/
theorem scanWord?_word
    (reserved : keyword ∈ reservedWords)
    (isWord : IsWord word)
    (stops : Text.Stops isNameChar rest) :
    scanWord? keyword (word ++ rest) =
      if word.map Char.toLower = keyword then some ((), rest) else none := by
  split
  · rename_i lowered
    exact scanWord?_eq_some_iff.mpr ⟨word, rfl, lowered, stops⟩
  · rename_i other
    exact scanWord?_run (isNameChar_of_mem_reservedWords reserved) isWord.isNameChar_of_mem stops
      other

/-- A reserved word is scanned the same in a text relaid. -/
theorem keeps_scanWord
    (reserved : keyword ∈ reservedWords)
    (aligned : Aligned cs cs') :
    SameOutcome 1 (· = ·) cs cs' (scanWord? keyword cs) (scanWord? keyword cs') := by
  refine aligned.named ?other ?word ?member
  case other =>
    intro cs cs' _ noName noName'
    rw [scanWord?_of_noName reserved noName, scanWord?_of_noName reserved noName']
    exact .fails
  case word =>
    intro word word' rest rest' isWord stops _ lowered relaid
    have isWord' := isWord.recased lowered
    rw [scanWord?_word reserved isWord stops,
      scanWord?_word reserved isWord' (relaid.noName stops), lowered]
    split
    · exact .unit rfl isWord.ne_nil isWord'.ne_nil relaid
    · exact .fails
  case member =>
    intro item property rest rest' isItem _ _ _
    rw [isItem.scanWord? (by simp [isNameChar]) reserved,
      isItem.scanWord? (by simp [isNameChar]) reserved]
    exact .fails

/-- The direction of a sort key is read the same in a text relaid. -/
theorem keeps_direction :
    Keeps Aligned bound bound' 1 (· = ·) Grammar.direction Grammar.direction := by
  intro cs cs' aligned _ _
  rw [matched?_direction, matched?_direction]
  refine SameOutcome.or ?_ fun _ => ?_
  · exact (keeps_scanWord (by decide : "asc".toList ∈ reservedWords) aligned).map
      (f := fun _ => false) (g := fun _ => false) fun _ _ _ => rfl
  · exact (keeps_scanWord (by decide : "desc".toList ∈ reservedWords) aligned).map
      (f := fun _ => true) (g := fun _ => true) fun _ _ _ => rfl

theorem keeps_keyword
    {text : String}
    (reserved : text.toList ∈ reservedWords) :
    Keeps Aligned bound bound' 1 (· = ·) (Grammar.keyword text) (Grammar.keyword text) :=
  .token fun _ _ => keeps_scanWord reserved

end Words

section Names

/-- Names that both stand for one name, or that differ in case where a call begins. -/
def SameName
    (cs : List Char)
    (name name' : String) :
    Prop :=
  name'.toList.map Char.toLower = name.toList.map Char.toLower ∧ (name' = name ∨ IsCall cs)

theorem scanName?_of_noName
    (noName : Text.Stops isNameStart cs) :
    scanName? cs = none := by
  cases cs with
  | nil => rfl
  | cons c others => exact scanName?_of_head (Text.stops_cons.mp noName)

/-- A word is an identifier unless it is reserved. -/
theorem scanName?_word
    {word : List Char}
    (isWord : IsWord word)
    (stops : Text.Stops isNameChar rest) :
    scanName? (word ++ rest) =
      if word.map Char.toLower ∈ reservedWords then none
      else some (String.ofList word, rest) := by
  split
  · rename_i reserved
    exact scanName?_of_reserved isWord.isNameChar_of_mem reserved stops
  · rename_i notReserved
    refine scanName?_eq_some_iff.mpr ⟨⟨?_, ?_⟩, ?_, stops⟩
    · rw [isIdentifier_iff, String.toList_ofList]
      exact isWord
    · rwa [String.toList_ofList]
    · rw [String.toList_ofList]

/-- A name is scanned the same in a text relaid, up to case where a call begins. -/
theorem keeps_scanName
    (aligned : Aligned cs cs') :
    SameOutcome 1 (SameName cs) cs cs' (scanName? cs) (scanName? cs') := by
  refine aligned.named ?other ?word ?member
  case other =>
    intro cs cs' _ noName noName'
    rw [scanName?_of_noName noName, scanName?_of_noName noName']
    exact .fails
  case word =>
    intro word word' rest rest' isWord stops caseless lowered relaid
    have isWord' := isWord.recased lowered
    rw [scanName?_word isWord stops, scanName?_word isWord' (relaid.noName stops), lowered]
    split
    · exact .fails
    · rename_i notReserved
      refine .unit ⟨by simpa using lowered, ?_⟩ isWord.ne_nil isWord'.ne_nil relaid
      rcases caseless with rfl | reserved | isCall
      · exact .inl rfl
      · exact absurd reserved notReserved
      · exact .inr isCall
  case member =>
    intro item property rest rest' isItem _ _ _
    have long := List.length_pos_iff.mpr isItem.isWord.ne_nil
    rw [isItem.scanName? (by simp [isNameChar]), isItem.scanName? (by simp [isNameChar])]
    refine .found ⟨rfl, .inl rfl⟩ Aligned.point.behind ?_ ?_
    · rw [List.length_append]
      omega
    · rw [List.length_append]
      omega

/-- A property of an item is read the same in a text relaid. -/
theorem keeps_member :
    Keeps Aligned bound bound' 1 (· = ·) Grammar.member Grammar.member := by
  intro cs cs' aligned _ _
  have noMember : ∀ {word rest : List Char}, IsWord word → Text.Stops isNameChar rest →
      Text.Stops (· == '.') rest → (Grammar.member (word ++ rest)).matched? = none := by
    intro word rest isWord stops noPoint
    cases found : scanName? (word ++ rest) with
    | none => exact matched?_member_of_noName found
    | some answer =>
        have isName := found
        rw [scanName?_word isWord stops, Option.ite_none_left_eq_some] at found
        cases found.2
        exact matched?_member_of_noPoint isName noPoint
  refine aligned.named ?other ?word ?member
  case other =>
    intro cs cs' _ noName noName'
    rw [matched?_member_of_noName (scanName?_of_noName noName),
      matched?_member_of_noName (scanName?_of_noName noName')]
    exact .fails
  case word =>
    intro word word' rest rest' isWord stops _ lowered relaid
    rw [noMember isWord stops relaid.noPoint,
      noMember (isWord.recased lowered) (relaid.noName stops) relaid.noPoint']
    exact .fails
  case member =>
    intro item property rest rest' isItem isProperty stops relaid
    rw [matched?_member isItem isProperty stops,
      matched?_member isItem isProperty (relaid.noName stops)]
    have same : SameOutcome 1 (· = ·) ((item.toList ++ '.' :: property.toList) ++ rest)
        ((item.toList ++ '.' :: property.toList) ++ rest')
        (some (Expr.member item property, rest)) (some (Expr.member item property, rest')) :=
      .unit rfl (by simp) (by simp) relaid
    rwa [List.append_assoc, List.append_assoc] at same

/-- A parameter is read the same in a text relaid. -/
theorem keeps_parameter :
    Keeps Aligned bound bound' 1 (· = ·) Grammar.parameter Grammar.parameter := by
  intro cs cs' aligned _ _
  refine aligned.scanned (fun cs => (Grammar.parameter cs).matched?)
    (by decide : UnitKind.parameter ≠ .named) rfl ?other ?same
  case other =>
    intro c others noParameter
    refine matched?_parameter_of_noSign (Text.stops_cons.mpr (beq_eq_false_iff_ne.mpr ?_))
    rintro rfl
    exact noParameter rfl
  case same =>
    intro unit rest rest' isUnit relaid
    cases isUnit with
    | parameter proper stops =>
        rw [List.cons_append, List.cons_append, matched?_parameter proper stops,
          matched?_parameter proper (relaid.noName stops)]
        exact .unit rfl (List.cons_ne_nil _ _) (List.cons_ne_nil _ _) relaid

end Names

section Literals

/-- Readings of one value, or of integers that do not fit. -/
def SameReading
    (reading reading' : Reading α) :
    Prop :=
  reading.toOption = reading'.toOption

theorem isDigit_of_noNumber
    {c : Char}
    (noNumber : kindOf? c ≠ some .number) :
    Decimal.isDigit c = false ∧ c ≠ '-' := by
  constructor
  · by_contra digit
    exact noNumber (kindOf?_of_isDigit (by simpa using digit))
  · rintro rfl
    exact noNumber rfl

theorem keeps_scanReal
    (aligned : Aligned cs cs') :
    SameOutcome 1 (· = ·) cs cs' (scanReal? cs) (scanReal? cs') := by
  refine aligned.scanned scanReal? (by decide : UnitKind.number ≠ .named) rfl ?other ?same
  case other =>
    intro c others noNumber
    obtain ⟨noDigit, noSign⟩ := isDigit_of_noNumber noNumber
    exact scanReal?_of_head noDigit noSign
  case same =>
    intro unit rest rest' isUnit relaid
    have someChar := isUnit.ne_nil
    cases isUnit with
    | @real parts _ proper stops =>
        rw [scanReal?_eq_some_iff.mpr ⟨proper, rfl, stops⟩,
          scanReal?_eq_some_iff.mpr ⟨proper, rfl, relaid.noDigit stops⟩]
        exact .unit rfl someChar someChar relaid
    | integer proper stops =>
        rw [scanReal?_integer proper stops relaid.noPoint,
          scanReal?_integer proper (relaid.noDigit stops) relaid.noPoint']
        exact .fails

theorem keeps_scanInteger
    (aligned : Aligned cs cs') :
    SameOutcome 1 (· = ·) cs cs' (scanInteger? cs) (scanInteger? cs') := by
  refine aligned.scanned scanInteger? (by decide : UnitKind.number ≠ .named) rfl ?other ?same
  case other =>
    intro c others noNumber
    obtain ⟨noDigit, noSign⟩ := isDigit_of_noNumber noNumber
    exact scanInteger?_of_head noDigit noSign
  case same =>
    intro unit rest rest' isUnit relaid
    have someChar := isUnit.ne_nil
    cases isUnit with
    | @real parts _ proper =>
        -- the digits in front of the point are taken, and both texts stand at the point
        have long := List.length_pos_iff.mpr proper.whole.some
        have taken : ∀ rest, scanInteger? (parts.text ++ rest) =
            some (minus parts.negative ++ parts.whole, '.' :: (parts.fraction ++ rest)) := by
          intro rest
          refine scanInteger?_eq_some_iff.mpr ⟨_, _, rfl, proper.whole, ?_,
            Text.stops_cons.mpr (by decide)⟩
          simp [Fraction.text]
        rw [taken, taken]
        refine .found rfl Aligned.point.behind ?_ ?_
        · simp only [Fraction.text, List.length_append, List.length_cons]
          omega
        · simp only [Fraction.text, List.length_append, List.length_cons]
          omega
    | integer proper stops =>
        rw [scanInteger?_eq_some_iff.mpr ⟨_, _, rfl, proper, rfl, stops⟩,
          scanInteger?_eq_some_iff.mpr ⟨_, _, rfl, proper, rfl, relaid.noDigit stops⟩]
        exact .unit rfl someChar someChar relaid

/-- A text literal is scanned the same in a text relaid. -/
theorem keeps_scanText
    (aligned : Aligned cs cs') :
    SameOutcome 1 (· = ·) cs cs' (scanText? cs) (scanText? cs') := by
  refine aligned.scanned scanText? (by decide : UnitKind.text ≠ .named) rfl ?other ?same
  case other =>
    intro c others noText
    refine scanText?_of_head ?_ ?_
    · rintro rfl
      exact noText rfl
    · rintro rfl
      exact noText rfl
  case same =>
    intro unit rest rest' isUnit relaid
    have someChar := isUnit.ne_nil
    cases isUnit with
    | @text quote value _ isQuote stops =>
        have taken : ∀ {rest : List Char}, Text.Stops (· == quote) rest →
            scanText? (quote :: (Expr.doubled quote value ++ [quote]) ++ rest) =
              some (String.ofList value, rest) := by
          intro rest stops
          have quoted := scanQuoted?_eq_some_iff.mpr
            (⟨rfl, stops⟩ : Expr.doubled quote value ++ quote :: rest = _ ∧ _)
          rcases isQuote with rfl | rfl <;> simp [scanText?, quoted]
        have stops' : Text.Stops (· == quote) rest' := by
          rcases isQuote with rfl | rfl
          · exact relaid.noChar rfl rfl stops
          · exact relaid.noChar rfl rfl stops
        rw [taken stops, taken stops']
        exact .unit rfl someChar someChar relaid

/-- The integer that some digits spell, or that they do not fit so many characters from the end. -/
def integerReading
    (left : Nat)
    (digits : List Char) :
    Reading Value :=
  match Decimal.int64? digits with
  | some n => .ok (.integer n)
  | none => .error ⟨String.ofList digits, left⟩

theorem matched?_integerLiteral
    (cs : List Char) :
    (Grammar.integerLiteral cs).matched? =
      (scanInteger? cs).map fun found => (integerReading cs.length found.1, found.2) := by
  rw [Grammar.integerLiteral, matched?_bind_of_some matched?_left, matched?_bind, matched?_token]
  cases scanInteger? cs with
  | none => rfl
  | some found =>
      rw [Option.bind_some, Option.map_some, integerReading]
      cases Decimal.int64? found.1 <;> rfl

theorem keeps_literal :
    Keeps Aligned bound bound' 1 SameReading Grammar.literal Grammar.literal := by
  have null : Keeps Aligned bound bound' 1 SameReading Grammar.nullLiteral Grammar.nullLiteral :=
    (Keeps.token fun _ _ => keeps_scanWord (by decide)).finish le_rfl (fun _ _ => rfl)
      (fun _ _ => rfl)
      fun _ _ _ => rfl
  have real : Keeps Aligned bound bound' 1 SameReading Grammar.realLiteral Grammar.realLiteral :=
    (Keeps.token fun _ _ => keeps_scanReal).finish le_rfl (fun _ _ => rfl) (fun _ _ => rfl)
      fun _ _ same => by rw [same]; rfl
  have integer : Keeps Aligned bound bound' 1 SameReading Grammar.integerLiteral
      Grammar.integerLiteral := by
    intro cs cs' aligned _ _
    rw [matched?_integerLiteral, matched?_integerLiteral]
    refine (keeps_scanInteger aligned).map ?_
    rintro digits _ rfl
    unfold integerReading
    cases Decimal.int64? digits <;> rfl
  have text : Keeps Aligned bound bound' 1 SameReading Grammar.textLiteral Grammar.textLiteral :=
    (Keeps.token fun _ _ => keeps_scanText).finish le_rfl (fun _ _ => rfl) (fun _ _ => rfl)
      fun _ _ same => by rw [same]; rfl
  refine Keeps.rule ((null.orElse (real.orElse (integer.orElse text.only))).finish le_rfl
    (fun _ _ => rfl) (fun _ _ => rfl) fun reading reading' same => ?_)
  cases reading <;> cases reading' <;> cases same <;> rfl

end Literals

section Signs

/-- A sign that stands for itself is read the same in a text relaid. -/
theorem keeps_sign
    {c : Char}
    (listed : c ∈ ['(', ')', ',', ';']) :
    Keeps Aligned bound bound' 1 (fun _ _ => True) (sign c) (sign c) := by
  intro cs cs' aligned _ _
  obtain ⟨d, others, shape, isSign⟩ := (IsUnit.sign listed : IsUnit .sign [c] []).exists_head
  cases shape
  refine aligned.scanned (fun cs => (sign c cs).matched?) (by decide : UnitKind.sign ≠ .named)
    rfl ?other ?same
  case other =>
    intro d others noSign
    rw [matched?_sign_cons, if_neg]
    rintro rfl
    exact noSign isSign
  case same =>
    intro unit rest rest' isUnit relaid
    have someChar := isUnit.ne_nil
    cases isUnit with
    | @sign d _ _ =>
        rw [List.cons_append, List.cons_append, List.nil_append, List.nil_append,
          matched?_sign_cons, matched?_sign_cons]
        by_cases same : d = c
        · rw [if_pos same, if_pos same]
          exact .unit trivial someChar someChar relaid
        · rw [if_neg same, if_neg same]
          exact .fails

/-- The sign between the operands of a join is read the same in a text relaid. -/
theorem keeps_equals :
    Keeps Aligned bound bound' 1 (fun _ _ => True) (sign '=') (sign '=') := by
  intro cs cs' aligned _ _
  refine aligned.scanned (fun cs => (sign '=' cs).matched?)
    (by decide : UnitKind.operator ≠ .named) rfl ?other ?same
  case other =>
    intro d others noOperator
    rw [matched?_sign_cons, if_neg]
    rintro rfl
    exact noOperator rfl
  case same =>
    intro unit rest rest' isUnit relaid
    have someChar := isUnit.ne_nil
    cases isUnit with
    | operator listed =>
        obtain ⟨d, others, rfl⟩ := List.exists_cons_of_ne_nil someChar
        by_cases same : d = '='
        · obtain rfl := spelling_eq_of_head listed (by rw [same])
          subst same
          rw [List.cons_append, List.cons_append, matched?_sign_self, matched?_sign_self]
          exact .unit trivial someChar someChar relaid
        · rw [List.cons_append, List.cons_append, matched?_sign_cons, matched?_sign_cons,
            if_neg same, if_neg same]
          exact .fails

theorem keeps_operator :
    Keeps Aligned bound bound' 1 (· = ·) Grammar.operator Grammar.operator := by
  refine .token fun cs cs' aligned => ?_
  rw [scanOperator?_eq_or, scanOperator?_eq_or]
  refine SameOutcome.or ?_ fun _ => ?_
  · refine aligned.scanned scanSpelling? (by decide : UnitKind.operator ≠ .named) rfl ?other ?same
    case other =>
      intro c others noOperator
      exact scanSpelling?_of_head noOperator
    case same =>
      intro unit rest rest' isUnit relaid
      have someChar := isUnit.ne_nil
      cases isUnit with
      | operator listed longest =>
          have longest' : ∀ c longer, (unit ++ [c], longer) ∈ Grammar.operatorSigns →
              Text.Stops (· == c) rest' := by
            intro c longer listedToo
            have stops := longest c longer listedToo
            have isEnd := mem_of_operatorSigns listedToo
            simp only [List.mem_cons, List.not_mem_nil, or_false] at isEnd
            rcases isEnd with rfl | rfl | rfl <;> exact relaid.noChar rfl rfl stops
          rw [scanSpelling?_spelling listed longest, scanSpelling?_spelling listed longest']
          exact .unit rfl someChar someChar relaid
  · exact (keeps_scanWord (by decide : "like".toList ∈ reservedWords) aligned).map
      (f := fun _ => Comparison.like) (g := fun _ => Comparison.like) fun _ _ _ => rfl

/-- The end of a text is the end of the text relaid. -/
theorem keeps_endOfText :
    Keeps Aligned bound bound' 0 (fun _ _ => True) Grammar.endOfText Grammar.endOfText := by
  refine .token fun cs cs' aligned => ?_
  cases aligned with
  | ends => exact .found trivial Aligned.ends.behind le_rfl le_rfl
  | point => exact .fails
  | recased isWord stops _ lowered =>
      obtain ⟨c, others, rfl⟩ := List.exists_cons_of_ne_nil isWord.ne_nil
      obtain ⟨c', others', rfl⟩ := List.exists_cons_of_ne_nil (isWord.recased lowered).ne_nil
      exact .fails
  | unit isUnit =>
      obtain ⟨c, others, rfl⟩ := List.exists_cons_of_ne_nil isUnit.ne_nil
      exact .fails

end Signs

end FullTextQuery.Query
