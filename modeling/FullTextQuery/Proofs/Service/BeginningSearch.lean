import FullTextQuery.Proofs.Service.MemorySearch

namespace FullTextQuery.MemoryIndex

/-!
# Searching by the beginning of a word

Words are the maximal runs of alphanumeric characters as they stand in a text.  A beginning of
a word with a star behind it is one term, and the term finds the texts with a word whose lower
case begins with that of the beginning.  That is every text with the word itself, but where the
beginning ends in a capital sigma that is final there and not in the word.
-/

/-- A word as it stands in a text. -/
def IsWordOf
    (word text : String) :
    Prop :=
  Text.IsMaximalRun Text.isAlphanumeric text.toList word.toList

/-- Whether a word of a text begins with some characters, both in lower case. -/
def HasBeginning
    (front text : String) :
    Prop :=
  ∃ word, IsWordOf word text ∧ (Text.lowercase front).toList <+: (Text.lowercase word).toList

section Beginnings

variable {front rest text lowered : String}

/-- A document is kept as the lower case of its words. -/
theorem mem_wordsOf_iff :
    lowered ∈ wordsOf text ↔ ∃ word, IsWordOf word text ∧ Text.lowercase word = lowered := by
  have isWord : ∀ piece : List Char, piece ∈ Text.pieces (fun c => !Text.isAlphanumeric c)
      text.toList ↔ IsWordOf (String.ofList piece) text := by
    intro piece
    rw [Text.mem_pieces_iff, IsWordOf, String.toList_ofList]
    simp only [Bool.not_not]
  simp only [wordsOf, List.mem_map, isWord]
  constructor
  · rintro ⟨piece, isPiece, rfl⟩
    exact ⟨_, isPiece, rfl⟩
  · rintro ⟨word, isWord, rfl⟩
    exact ⟨word.toList, by rwa [String.ofList_toList], by rw [String.ofList_toList]⟩

theorem hasBeginning_iff :
    HasBeginning front text ↔
      ∃ word ∈ wordsOf text, (Text.lowercase front).toList <+: word.toList := by
  simp only [mem_wordsOf_iff, HasBeginning]
  constructor
  · rintro ⟨word, isWord, begins⟩
    exact ⟨_, ⟨word, isWord, rfl⟩, begins⟩
  · rintro ⟨_, ⟨word, isWord, rfl⟩, begins⟩
    exact ⟨word, isWord, begins⟩

instance (front text : String) : Decidable (HasBeginning front text) :=
  decidable_of_iff _ hasBeginning_iff.symm

/-- Characters with a star behind them find the texts with a word that begins with them. -/
theorem finds_append_star_iff
    (nonempty : front ≠ "")
    (alphanumeric : ∀ c ∈ front.toList, Text.isAlphanumeric c = true) :
    Finds (front ++ "*") text ↔ HasBeginning front text := by
  have oneTerm := Text.words_append_star alphanumeric
  have ends := Text.toList_lowercase_append_star front
  have notLone : front ++ "*" ≠ "*" := by
    intro lone
    simp [nonempty, ← String.toList_inj] at lone
  simp only [Finds, oneTerm, List.mem_singleton, exists_eq_left, termFinds_iff, notLone, false_or,
    Text.lowercase, accepts_ofTerm_of_star ends, hasBeginning_iff]

/-- A word begins with each of its beginnings in lower case, unless that cuts a sigma. -/
theorem hasBeginning_of_isWordOf
    (isWord : IsWordOf (front ++ rest) text)
    (uncut : ¬ Text.CutsSigma [] front.toList rest.toList) :
    HasBeginning front text :=
  ⟨_, isWord, (Text.lowercase_isPrefix_iff front rest).mpr uncut⟩

end Beginnings

/-- What a search for the beginning of a word answers in an index of a memory. -/
structure FindsBeginnings
    (entries : List Entry)
    (index : String) :
    Prop where
  /-- A document is found by each beginning of each of its words that cuts no sigma. -/
  every : ∀ entry ∈ entries, entry.index = index → ∀ front rest,
    IsWordOf (front ++ rest) entry.text → ¬ Text.CutsSigma [] front.toList rest.toList →
      ∃ keys, (ofEntries entries).search index (front ++ "*") = .ok keys ∧ entry.key ∈ keys
  /-- Exactly the documents with a word that begins so in lower case are found. -/
  only : ∀ front, front ≠ "" → (∀ c ∈ front.toList, Text.isAlphanumeric c = true) →
    (ofEntries entries).search index (front ++ "*") =
      .ok (keysFound entries index (HasBeginning front))
  /-- A beginning that cuts a sigma of the one word of a text does not find the text. -/
  missed : ∀ front rest text, Text.CutsSigma [] front.toList rest.toList →
    (∀ word, IsWordOf word text → word = front ++ rest) → ¬ HasBeginning front text

section Main

variable {entries : List Entry} {index : String}

/-- A key is found if a document of the index with this key is. -/
theorem mem_keysFound_iff
    {found : String → Prop}
    [DecidablePred found]
    {key : String} :
    key ∈ keysFound entries index found ↔
      ∃ entry ∈ entries, entry.index = index ∧ found entry.text ∧ entry.key = key := by
  simp [keysFound, and_assoc]

/-- A search in an index that is there finds by beginnings. -/
theorem findsBeginnings
    (known : ∃ entry ∈ entries, entry.index = index) :
    FindsBeginnings entries index where
  every entry isEntry isIndex front rest isWord uncut := by
    refine ⟨_, search_ofEntries known _, mem_keysFound_iff.mpr ⟨entry, isEntry, isIndex, ?_, rfl⟩⟩
    by_cases nonempty : front = ""
    · subst nonempty
      exact finds_of_star (by decide) entry.text
    · have alphanumeric : ∀ c ∈ front.toList, Text.isAlphanumeric c = true :=
        fun c member => isWord.all c (by simp [member])
      exact (finds_append_star_iff nonempty alphanumeric).mpr
        (hasBeginning_of_isWordOf isWord uncut)
  only front nonempty alphanumeric := by
    rw [search_ofEntries known,
      keysFound_congr fun text => finds_append_star_iff nonempty alphanumeric]
  missed front rest text cut lone := by
    rintro ⟨word, isWord, begins⟩
    rw [lone word isWord, Text.lowercase_isPrefix_iff] at begins
    exact begins cut

end Main

/-- The sigma is final at the end of the beginning, and in the word a letter follows it. -/
theorem findsBeginnings_odos :
    (∃ entry ∈ [Entry.mk "cities" "K" "ΟΔΟΣΑ", ⟨"cities", "L", "Straße, ΟΔΟΣ 7"⟩],
      entry.index = "cities") ∧
    FindsBeginnings [⟨"cities", "K", "ΟΔΟΣΑ"⟩, ⟨"cities", "L", "Straße, ΟΔΟΣ 7"⟩] "cities" ∧
    (ofEntries [⟨"cities", "K", "ΟΔΟΣΑ"⟩, ⟨"cities", "L", "Straße, ΟΔΟΣ 7"⟩]).search
      "cities" "ΟΔΟΣ*" = .ok ["L"] :=
  have known : ∃ entry ∈ [Entry.mk "cities" "K" "ΟΔΟΣΑ", ⟨"cities", "L", "Straße, ΟΔΟΣ 7"⟩],
      entry.index = "cities" := by
    decide
  ⟨known, findsBeginnings known, by decide +kernel⟩

/-- A beginning of the one word of the one document that does not find it. -/
theorem search_odos :
    IsWordOf ("ΟΔΟΣ" ++ "Α") "ΟΔΟΣΑ" ∧
    (ofEntries [⟨"i", "K", "ΟΔΟΣΑ"⟩]).search "i" ("ΟΔΟΣ" ++ "*") = .ok [] := by
  refine ⟨⟨by decide, ?_, [], [], rfl, Text.stops_nil, Text.stops_nil⟩, by decide +kernel⟩
  simp
  decide +kernel

end FullTextQuery.MemoryIndex
