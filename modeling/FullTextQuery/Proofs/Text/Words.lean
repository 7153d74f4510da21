import FullTextQuery.Proofs.Text.Run
import FullTextQuery.Text.Alphanumeric
import FullTextQuery.Text.Blank
import FullTextQuery.Text.Lowercase

namespace FullTextQuery.Text

/-!
# Words and their letter case

The pieces of a text are what stands between its separators, without the empty parts.  So a
separator divides a text into two that are taken apart on their own, and a change of
characters that keeps separators apart from the others changes the pieces alike.  In ASCII a
change of letter case is such a change: the lower case of a text is that of each character,
wherever it stands, and no character becomes alphanumeric or blank that was not.

In general the lower case of a text begins with that of its beginning but for one character: a
capital sigma is final where no cased character follows, so it may be final at the end of the
beginning and not in the text.
-/

/-! ## Pieces -/

section Pieces

variable {separates : Char → Bool} {c : Char} {cs piece : List Char}

/-- The part up to the next separator is not empty where no separator stands. -/
theorem exists_splitOnP_cons
    (noSeparator : separates c = false)
    (rest : List Char) :
    ∃ front others, rest.splitOnP separates = front :: others ∧
      (c :: rest).splitOnP separates = (c :: front) :: others := by
  obtain ⟨front, others, shape⟩ := List.exists_cons_of_ne_nil (List.splitOnP_ne_nil separates rest)
  refine ⟨front, others, shape, ?_⟩
  rw [List.splitOnP_cons_eq_if_modifyHead, if_neg (by simp [noSeparator]), shape,
    List.modifyHead_cons]

theorem splitOnP_cons_of_separates
    (isSeparator : separates c = true)
    (rest : List Char) :
    (c :: rest).splitOnP separates = [] :: rest.splitOnP separates := by
  rw [List.splitOnP_cons_eq_if_modifyHead, if_pos isSeparator]

/-- The pieces are the parts between separators that are not empty. -/
theorem pieces_eq
    (separates : Char → Bool)
    (cs : List Char) :
    pieces separates cs = (cs.splitOnP separates).filter fun part => !part.isEmpty := by
  induction cs with
  | nil => rfl
  | cons c rest inductionHypothesis =>
      unfold pieces
      cases isSeparator : separates c with
      | true => simp [splitOnP_cons_of_separates isSeparator, inductionHypothesis]
      | false =>
          obtain ⟨front, others, restParts, parts⟩ := exists_splitOnP_cons isSeparator rest
          rw [parts, inductionHypothesis, restParts]
          cases rest with
          | nil =>
              obtain ⟨rfl, rfl⟩ := List.cons.inj (List.splitOnP_nil.symm.trans restParts)
              rfl
          | cons d rest =>
              cases nextSeparates : separates d with
              | true =>
                  rw [splitOnP_cons_of_separates nextSeparates] at restParts
                  obtain ⟨rfl, -⟩ := List.cons.inj restParts
                  cases kept : others.filter fun part => !part.isEmpty <;>
                    simp [nextSeparates, kept]
              | false =>
                  obtain ⟨_, _, -, nextParts⟩ := exists_splitOnP_cons nextSeparates rest
                  obtain ⟨rfl, -⟩ := List.cons.inj (nextParts.symm.trans restParts)
                  simp [nextSeparates]

/-- A text is taken apart in front of a separator and behind it. -/
theorem pieces_append_cons
    (isSeparator : separates c = true)
    (front rest : List Char) :
    pieces separates (front ++ c :: rest) = pieces separates front ++ pieces separates rest := by
  simp only [pieces_eq, List.splitOnP_append_cons front rest isSeparator, List.filter_append]

/-- A change of characters that keeps separators apart changes the characters of the parts. -/
theorem splitOnP_map
    {change : Char → Char}
    (keeps : ∀ c ∈ cs, separates (change c) = separates c) :
    (cs.map change).splitOnP separates = (cs.splitOnP separates).map (List.map change) := by
  induction cs with
  | nil => simp
  | cons c rest inductionHypothesis =>
      obtain ⟨firstKept, restKept⟩ := List.forall_mem_cons.mp keeps
      rw [List.map_cons, List.splitOnP_cons_eq_if_modifyHead, firstKept,
        inductionHypothesis restKept, List.splitOnP_cons_eq_if_modifyHead]
      cases separates c with
      | true => simp
      | false => cases rest.splitOnP separates <;> simp

theorem pieces_map
    {change : Char → Char}
    (keeps : ∀ c ∈ cs, separates (change c) = separates c) :
    pieces separates (cs.map change) = (pieces separates cs).map (List.map change) := by
  have isEmpty : (fun part : List Char => !part.isEmpty) ∘ List.map change =
      fun part => !part.isEmpty := by
    funext part
    cases part <;> rfl
  rw [pieces_eq, pieces_eq, splitOnP_map keeps, List.filter_map, isEmpty]

/-- A part of a text is made of characters of the text. -/
theorem mem_of_mem_splitOnP
    (isPart : piece ∈ cs.splitOnP separates)
    (member : c ∈ piece) :
    c ∈ cs := by
  induction cs generalizing piece with
  | nil =>
      rw [List.splitOnP_nil, List.mem_singleton] at isPart
      exact absurd (isPart ▸ member) List.not_mem_nil
  | cons first rest inductionHypothesis =>
      cases isSeparator : separates first with
      | true =>
          rw [splitOnP_cons_of_separates isSeparator, List.mem_cons] at isPart
          rcases isPart with rfl | inRest
          · exact absurd member List.not_mem_nil
          · exact List.mem_cons_of_mem _ (inductionHypothesis inRest member)
      | false =>
          obtain ⟨front, others, restParts, parts⟩ := exists_splitOnP_cons isSeparator rest
          rw [parts, List.mem_cons] at isPart
          rcases isPart with rfl | isOther
          · rcases List.mem_cons.mp member with rfl | inFront
            · exact List.mem_cons_self
            · exact List.mem_cons_of_mem _ (inductionHypothesis (by simp [restParts]) inFront)
          · exact List.mem_cons_of_mem _ (inductionHypothesis (by simp [restParts, isOther]) member)

theorem mem_of_mem_pieces
    (isPiece : piece ∈ pieces separates cs)
    (member : c ∈ piece) :
    c ∈ cs := by
  rw [pieces_eq] at isPiece
  exact mem_of_mem_splitOnP (List.mem_filter.mp isPiece).1 member

/-- The words of two texts with a blank between them are those of the one and of the other. -/
theorem words_append_blank
    (first second : String) :
    words (first ++ " " ++ second) = words first ++ words second := by
  have divided : pieces isBlank (first.toList ++ ' ' :: second.toList) =
      pieces isBlank first.toList ++ pieces isBlank second.toList :=
    pieces_append_cons rfl first.toList second.toList
  simp [words, divided]

end Pieces

/-! ## Maximal runs -/

/-- A run of characters of a kind with none of the kind in front of it or behind it. -/
structure IsMaximalRun
    (kind : Char → Bool)
    (cs run : List Char) :
    Prop where
  nonempty : run ≠ []
  all : ∀ c ∈ run, kind c = true
  between : ∃ front back, cs = front ++ (run ++ back) ∧
    Stops kind front.reverse ∧ Stops kind back

section MaximalRuns

variable {kind separates : Char → Bool} {c : Char} {cs run front rest : List Char}

/-- A run at the front is a maximal one where it stops. -/
theorem isMaximalRun_append
    (nonempty : run ≠ [])
    (all : ∀ c ∈ run, kind c = true)
    (stops : Stops kind rest) :
    IsMaximalRun kind (run ++ rest) run :=
  ⟨nonempty, all, [], rest, rfl, stops_nil, stops⟩

/-- A maximal run is still one behind another character and whatever is in front of that. -/
theorem IsMaximalRun.behind
    (maximal : IsMaximalRun kind rest run)
    (other : kind c = false)
    (front : List Char) :
    IsMaximalRun kind (front ++ c :: rest) run := by
  obtain ⟨nonempty, all, inner, back, rfl, stopsInner, stopsBack⟩ := maximal
  refine ⟨nonempty, all, front ++ c :: inner, back, by simp, ?_, stopsBack⟩
  rw [List.reverse_append, List.reverse_cons]
  cases backwards : inner.reverse with
  | nil => simpa using other
  | cons d others => simpa [backwards] using stopsInner

/-- Characters without a separator are one piece. -/
theorem pieces_of_no_separator
    (nonempty : cs ≠ [])
    (noSeparator : ∀ c ∈ cs, separates c = false) :
    pieces separates cs = [cs] := by
  rw [pieces_eq, List.splitOnP_eq_singleton noSeparator]
  exact List.filter_eq_self.mpr (by simpa using nonempty)

theorem mem_pieces_of_no_separator_iff
    (noSeparator : ∀ c ∈ cs, separates c = false) :
    run ∈ pieces separates cs ↔ run = cs ∧ cs ≠ [] := by
  by_cases nonempty : cs = []
  · simp [nonempty, pieces]
  · rw [pieces_of_no_separator nonempty noSeparator, List.mem_singleton, and_iff_left nonempty]

/-- Every text is a run in front of something else. -/
theorem exists_run_append
    (kind : Char → Bool)
    (cs : List Char) :
    ∃ run rest, cs = run ++ rest ∧ (∀ c ∈ run, kind c = true) ∧ Stops kind rest :=
  ⟨cs.takeWhile kind, cs.dropWhile kind, List.takeWhile_append_dropWhile.symm,
    fun _ member => List.mem_takeWhile_imp member, stops_dropWhile cs⟩

/-- Each piece that separators leave is a maximal run of other characters. -/
theorem isMaximalRun_of_mem_pieces
    (isPiece : run ∈ pieces separates cs) :
    IsMaximalRun (fun c => !separates c) cs run := by
  induction size : cs.length using Nat.strong_induction_on generalizing cs with
  | _ count inductionHypothesis =>
      -- the pieces are what stands up to the first separator and the pieces behind it
      obtain ⟨first, behind, rfl, all, stops⟩ := exists_run_append (fun c => !separates c) cs
      have noSeparator : ∀ c ∈ first, separates c = false :=
        fun c member => by simpa using all c member
      cases behind with
      | nil =>
          rw [List.append_nil, mem_pieces_of_no_separator_iff noSeparator] at isPiece
          obtain ⟨rfl, nonempty⟩ := isPiece
          exact isMaximalRun_append nonempty all stops
      | cons c rest =>
          have isSeparator : separates c = true := by simpa using stops
          rw [pieces_append_cons isSeparator, List.mem_append,
            mem_pieces_of_no_separator_iff noSeparator] at isPiece
          rcases isPiece with ⟨rfl, nonempty⟩ | inRest
          · exact isMaximalRun_append nonempty all stops
          · have shorter : rest.length < count := by
              simp only [List.length_append, List.length_cons] at size
              omega
            exact (inductionHypothesis _ shorter inRest rfl).behind (by simpa using stops) first

/-- The pieces that separators leave are the maximal runs of other characters. -/
theorem mem_pieces_iff :
    run ∈ pieces separates cs ↔ IsMaximalRun (fun c => !separates c) cs run := by
  refine ⟨isMaximalRun_of_mem_pieces, ?_⟩
  rintro ⟨nonempty, all, front, back, rfl, stopsFront, stopsBack⟩
  have isPiece : run ∈ pieces separates run :=
    (mem_pieces_of_no_separator_iff fun c member => by simpa using all c member).mpr ⟨rfl, nonempty⟩
  have atFront : run ∈ pieces separates (run ++ back) := by
    cases back with
    | nil => rwa [List.append_nil]
    | cons c others =>
        rw [pieces_append_cons (by simpa using stopsBack)]
        exact List.mem_append_left _ isPiece
  rcases front.eq_nil_or_concat with rfl | ⟨inner, c, rfl⟩
  · exact atFront
  · rw [List.concat_append, pieces_append_cons (by simpa using stopsFront)]
    exact List.mem_append_right _ atFront

end MaximalRuns

/-! ## ASCII -/

/-- Whether all characters are ASCII. -/
def IsAscii
    (cs : List Char) :
    Prop :=
  ∀ c ∈ cs, c.toNat < 128

variable {c : Char} {cs : List Char}

/-- What holds of the 128 characters holds of every ASCII character. -/
theorem forall_ascii
    (good : Char → Bool)
    (all : ∀ n < 128, good (Char.ofNat n) = true)
    (ascii : c.toNat < 128) :
    good c = true := by
  have isGood := all c.toNat ascii
  rwa [Char.ofNat_toNat] at isGood

/-- Ranges that begin above a code point do not tell whether it is in the class. -/
theorem inRanges_append_of_lt
    {front more : List (Nat × Nat)}
    {code : Nat}
    (above : ∀ range ∈ more, code < range.1) :
    inRanges (front ++ more) code = inRanges front code := by
  have outside : inRanges more code = false := by
    rw [inRanges, List.any_eq_false]
    intro range isRange
    have := above range isRange
    simp only [Bool.and_eq_true, decide_eq_true_eq, not_and]
    omega
  unfold inRanges at outside ⊢
  rw [List.any_append, outside, Bool.or_false]

/-- In ASCII the letters and the digits are alphanumeric. -/
theorem isAlphanumeric_of_ascii
    (ascii : c.toNat < 128) :
    isAlphanumeric c = inRanges [(48, 57), (65, 90), (97, 122)] c.toNat := by
  have above : ∀ range ∈ alphanumericRanges.drop 3, 128 ≤ range.1 := by
    decide +kernel
  unfold isAlphanumeric
  rw [← List.take_append_drop 3 alphanumericRanges, inRanges_append_of_lt]
  · rfl
  · intro range isRange
    have := above range isRange
    omega

theorem toNat_toLower_lt
    (ascii : c.toNat < 128) :
    c.toLower.toNat < 128 := by
  simpa using forall_ascii (fun c => decide (c.toLower.toNat < 128)) (by decide +kernel) ascii

theorem isAlphanumeric_toLower
    (ascii : c.toNat < 128) :
    isAlphanumeric c.toLower = isAlphanumeric c := by
  rw [isAlphanumeric_of_ascii ascii, isAlphanumeric_of_ascii (toNat_toLower_lt ascii)]
  simpa using forall_ascii
    (fun c => inRanges [(48, 57), (65, 90), (97, 122)] c.toLower.toNat ==
      inRanges [(48, 57), (65, 90), (97, 122)] c.toNat) (by decide +kernel) ascii

theorem isBlank_toLower
    (ascii : c.toNat < 128) :
    isBlank c.toLower = isBlank c := by
  simpa using forall_ascii (fun c => isBlank c.toLower == isBlank c) (by decide +kernel) ascii

/-- The star is no letter. -/
theorem toLower_eq_star
    (ascii : c.toNat < 128) :
    c.toLower = '*' ↔ c = '*' := by
  have alike := forall_ascii (fun c => (c.toLower == '*') == (c == '*')) (by decide +kernel) ascii
  rwa [beq_iff_eq, Bool.eq_iff_iff, beq_iff_eq, beq_iff_eq] at alike

theorem IsAscii.map_toLower
    (ascii : IsAscii cs) :
    IsAscii (cs.map Char.toLower) := by
  intro c member
  obtain ⟨original, isOriginal, rfl⟩ := List.mem_map.mp member
  exact toNat_toLower_lt (ascii original isOriginal)

/-- No context changes the lower case of ASCII. -/
theorem lowerAfter_of_ascii
    (ascii : IsAscii cs)
    (before : List Char) :
    lowerAfter before cs = cs.map Char.toLower := by
  induction cs generalizing before with
  | nil => rfl
  | cons c rest inductionHypothesis =>
      obtain ⟨firstAscii, restAscii⟩ := List.forall_mem_cons.mp ascii
      have noSigma : c ≠ 'Σ' := by
        rintro rfl
        exact absurd firstAscii (by decide)
      rw [lowerAfter, if_neg noSigma, lowerChar, if_pos firstAscii, inductionHypothesis restAscii]
      rfl

theorem toList_lowercase_of_ascii
    {text : String}
    (ascii : IsAscii text.toList) :
    (lowercase text).toList = text.toList.map Char.toLower := by
  rw [lowercase, String.toList_ofList, lowerAfter_of_ascii ascii]

/-- Two ASCII texts that differ in the case of letters only. -/
structure SameLetters (text other : String) : Prop where
  ascii : IsAscii text.toList
  otherAscii : IsAscii other.toList
  same : text.toList.map Char.toLower = other.toList.map Char.toLower

/-! ## Beginnings -/

section Beginnings

variable {before front rest : List Char}

/-- What follows some characters is looked at if all of them are skipped. -/
theorem meetsCased_append_of_ignorable
    (ignorable : ∀ c ∈ front, isCaseIgnorable c = true)
    (rest : List Char) :
    meetsCased (front ++ rest) = meetsCased rest := by
  rw [meetsCased, List.dropWhile_append_of_pos ignorable]
  rfl

/-- Nothing behind a character that is not skipped is looked at. -/
theorem meetsCased_append_of_not_ignorable
    (notIgnorable : ¬ ∀ c ∈ front, isCaseIgnorable c = true)
    (rest : List Char) :
    meetsCased (front ++ rest) = meetsCased front := by
  unfold meetsCased
  cases kept : front.dropWhile isCaseIgnorable with
  | nil => exact absurd (List.dropWhile_eq_nil_iff.mp kept) notIgnorable
  | cons c others =>
      rw [List.dropWhile_append, kept]
      rfl

theorem meetsCased_of_all_ignorable
    (ignorable : ∀ c ∈ cs, isCaseIgnorable c = true) :
    meetsCased cs = false := by
  rw [meetsCased, List.dropWhile_eq_nil_iff.mpr ignorable]

/-- Where no cased character follows, what follows does not change the lower case before it. -/
theorem lowerAfter_append_of_not_meetsCased
    (noneFollows : meetsCased rest = false)
    (before front : List Char) :
    lowerAfter before (front ++ rest) =
      lowerAfter before front ++ lowerAfter (front.reverse ++ before) rest := by
  induction front generalizing before with
  | nil => rfl
  | cons c front inductionHypothesis =>
      have alike : meetsCased (front ++ rest) = meetsCased front := by
        by_cases ignorable : ∀ c ∈ front, isCaseIgnorable c = true
        · rw [meetsCased_append_of_ignorable ignorable, noneFollows,
            meetsCased_of_all_ignorable ignorable]
        · exact meetsCased_append_of_not_ignorable ignorable rest
      rw [List.cons_append, lowerAfter, lowerAfter, alike, inductionHypothesis]
      simp

/--
Whether a capital sigma is final at the end of a front and not in the whole text: with a cased
character before it, only skipped ones between it and the end, and a cased one next.  What
stands before the front is given backwards.
-/
def CutsSigma
    (before front rest : List Char) :
    Prop :=
  ∃ inner behind, front = inner ++ 'Σ' :: behind ∧ meetsCased (inner.reverse ++ before) = true ∧
    (∀ c ∈ behind, isCaseIgnorable c = true) ∧ meetsCased rest = true

theorem cutsSigma_cons_iff :
    CutsSigma before (c :: front) rest ↔
      (c = 'Σ' ∧ meetsCased before = true ∧
        (∀ c ∈ front, isCaseIgnorable c = true) ∧ meetsCased rest = true) ∨
      CutsSigma (c :: before) front rest := by
  constructor
  · rintro ⟨inner, behind, shape, cut⟩
    cases inner with
    | nil =>
        obtain ⟨rfl, rfl⟩ := List.cons.inj shape
        exact .inl ⟨rfl, cut⟩
    | cons d inner =>
        obtain ⟨rfl, rfl⟩ := List.cons.inj shape
        exact .inr ⟨inner, behind, rfl, by simpa using cut⟩
  · rintro (⟨rfl, cut⟩ | ⟨inner, behind, rfl, cut⟩)
    · exact ⟨[], front, rfl, cut⟩
    · exact ⟨c :: inner, behind, rfl, by simpa using cut⟩

/-- What follows a front changes whether a sigma before it is final exactly if that is cut. -/
theorem isFinal_append_iff
    (before : Bool)
    (front rest : List Char) :
    (before && !meetsCased front) = (before && !meetsCased (front ++ rest)) ↔
      ¬ (before = true ∧ (∀ c ∈ front, isCaseIgnorable c = true) ∧ meetsCased rest = true) := by
  by_cases ignorable : ∀ c ∈ front, isCaseIgnorable c = true
  · rw [meetsCased_append_of_ignorable ignorable, meetsCased_of_all_ignorable ignorable,
      and_iff_right ignorable]
    cases before <;> cases meetsCased rest <;> decide
  · rw [meetsCased_append_of_not_ignorable ignorable]
    exact iff_of_true rfl fun cut => ignorable cut.2.1

/-- The two forms of sigma are different characters. -/
theorem sigma_isPrefix_iff
    (isFinal isFinalToo : Bool)
    (lowered other : List Char) :
    (if isFinal then ['ς'] else ['σ']) ++ lowered <+:
        (if isFinalToo then ['ς'] else ['σ']) ++ other ↔
      isFinal = isFinalToo ∧ lowered <+: other := by
  cases isFinal <;> cases isFinalToo <;> simp

/-- The lower case of a text begins with that of its front exactly if no sigma is cut. -/
theorem lowerAfter_isPrefix_iff
    (before front rest : List Char) :
    lowerAfter before front <+: lowerAfter before (front ++ rest) ↔
      ¬ CutsSigma before front rest := by
  induction front generalizing before with
  | nil => simp [lowerAfter, CutsSigma]
  | cons c front inductionHypothesis =>
      rw [List.cons_append, lowerAfter, lowerAfter, cutsSigma_cons_iff, not_or,
        ← inductionHypothesis]
      by_cases isSigma : c = 'Σ'
      · subst isSigma
        simp only [if_true, sigma_isPrefix_iff, isFinal_append_iff, true_and]
      · simp [isSigma, List.prefix_append_right_inj]

theorem lowercase_isPrefix_iff
    (front rest : String) :
    (lowercase front).toList <+: (lowercase (front ++ rest)).toList ↔
      ¬ CutsSigma [] front.toList rest.toList := by
  simpa [lowercase] using lowerAfter_isPrefix_iff [] front.toList rest.toList

/-- A star is neither cased nor skipped. -/
theorem lowerAfter_append_star
    (cs : List Char) :
    lowerAfter [] (cs ++ ['*']) = lowerAfter [] cs ++ ['*'] := by
  rw [lowerAfter_append_of_not_meetsCased (by decide +kernel)]
  rfl

theorem toList_lowercase_append_star
    (text : String) :
    (lowercase (text ++ "*")).toList = (lowercase text).toList ++ ['*'] := by
  simpa [lowercase] using lowerAfter_append_star text.toList

/-- A code point in one of some ranges is in none of the ranges that are apart from them. -/
theorem inRanges_eq_false_of_apart
    {ranges others : List (Nat × Nat)}
    {code : Nat}
    (apart : ∀ range ∈ ranges, ∀ other ∈ others, range.2 < other.1 ∨ other.2 < range.1)
    (member : inRanges ranges code = true) :
    inRanges others code = false := by
  simp only [inRanges, List.any_eq_true, Bool.and_eq_true, decide_eq_true_eq] at member
  obtain ⟨range, isRange, inRange⟩ := member
  simp only [inRanges, List.any_eq_false, Bool.and_eq_true, decide_eq_true_eq]
  intro other isOther inOther
  have := apart range isRange other isOther
  omega

/-- No character is both alphanumeric and white space. -/
theorem isBlank_of_isAlphanumeric
    (alphanumeric : isAlphanumeric c = true) :
    isBlank c = false := by
  have apart : (blankRanges.all fun other => alphanumericRanges.all fun range =>
      Nat.blt range.2 other.1 || Nat.blt other.2 range.1) = true := by
    decide +kernel
  simp only [List.all_eq_true, Bool.or_eq_true, Nat.blt_eq] at apart
  exact inRanges_eq_false_of_apart
    (fun range isRange other isOther => apart other isOther range isRange) alphanumeric

/-- A beginning of a word and a star make one term. -/
theorem words_append_star
    {front : String}
    (alphanumeric : ∀ c ∈ front.toList, isAlphanumeric c = true) :
    words (front ++ "*") = [front ++ "*"] := by
  have noBlank : ∀ c ∈ (front ++ "*").toList, isBlank c = false := by
    intro c member
    rw [String.toList_append, List.mem_append] at member
    rcases member with inFront | isStar
    · exact isBlank_of_isAlphanumeric (alphanumeric c inFront)
    · rw [List.mem_singleton.mp isStar]
      decide
  rw [words, pieces_of_no_separator (by simp) noBlank, List.map_singleton, String.ofList_toList]

end Beginnings

end FullTextQuery.Text
