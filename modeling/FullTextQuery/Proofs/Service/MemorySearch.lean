import FullTextQuery.Proofs.NameMap
import FullTextQuery.Proofs.Pointwise
import FullTextQuery.Proofs.Text.Words
import FullTextQuery.Service.Memory
import Mathlib

namespace FullTextQuery

/-!
# What a search in memory finds

A term finds a text by one of three rules: the term `*` finds every text, a term that ends
in `*` finds a word that begins with what stands before it, and any other term finds a word
that is the same, all in lower case.  A query finds what one of its terms finds, and a
search answers the keys of the documents that the query finds, in the order in which the
documents were added.  So two queries one behind the other find what either of them finds,
and nothing depends on the order of terms, on repeated ones, on other indexes or, in
ASCII, on letter case.
-/

/-- A document as it is added: its index, its key and its text. -/
structure Entry where
  index : String
  key : String
  text : String
  deriving Repr, DecidableEq

namespace MemoryIndex

/-- The memory after some documents were added one after another. -/
def ofEntries
    (entries : List Entry) :
    MemoryIndex :=
  entries.foldl (fun memory entry => memory.add entry.index entry.key entry.text) empty

/-- Whether a term finds a text. -/
inductive TermFinds (term text : String) : Prop
  | everything : term = "*" → TermFinds term text
  | word : (Text.lowercase term).toList.getLast? ≠ some '*' →
      Text.lowercase term ∈ wordsOf text → TermFinds term text
  | beginning {front : List Char} {word : String} :
      (Text.lowercase term).toList = front ++ ['*'] → word ∈ wordsOf text →
        front <+: word.toList → TermFinds term text

/-- Whether a query finds a text: whether one of its terms does. -/
def Finds
    (query text : String) :
    Prop :=
  ∃ term ∈ Text.words query, TermFinds term text

section Patterns

variable {term word : String}

/-- A term that does not end in `*` accepts the one word that it is in lower case. -/
theorem accepts_ofTerm_of_no_star
    (noStar : (Text.lowercase term).toList.getLast? ≠ some '*') :
    (TermPattern.ofTerm term).accepts word = true ↔ word = Text.lowercase term := by
  have pattern : TermPattern.ofTerm term = .word (Text.lowercase term).toList := by
    unfold TermPattern.ofTerm
    dsimp only
    split
    · exact absurd ‹_› noStar
    · rfl
  simp [pattern, TermPattern.accepts, String.toList_inj]

/-- A term that ends in `*` accepts the words that begin with the rest of it. -/
theorem accepts_ofTerm_of_star
    {front : List Char}
    (ends : (Text.lowercase term).toList = front ++ ['*']) :
    (TermPattern.ofTerm term).accepts word = true ↔ front <+: word.toList := by
  have pattern : TermPattern.ofTerm term = .beginning front := by
    unfold TermPattern.ofTerm
    simp [ends]
  simp [pattern, TermPattern.accepts, List.isPrefixOf_iff_prefix]

/-- A term finds a text if it is `*` or if its pattern accepts a word of the text. -/
theorem termFinds_iff
    {text : String} :
    TermFinds term text ↔
      term = "*" ∨ ∃ word ∈ wordsOf text, (TermPattern.ofTerm term).accepts word = true := by
  constructor
  · rintro (all | ⟨noStar, isWord⟩ | ⟨ends, isWord, isFront⟩)
    · exact .inl all
    · exact .inr ⟨_, isWord, (accepts_ofTerm_of_no_star noStar).mpr rfl⟩
    · exact .inr ⟨_, isWord, (accepts_ofTerm_of_star ends).mpr isFront⟩
  · rintro (all | ⟨word, isWord, accepted⟩)
    · exact .everything all
    · by_cases star : (Text.lowercase term).toList.getLast? = some '*'
      · obtain ⟨front, ends⟩ := List.getLast?_eq_some_iff.mp star
        exact .beginning ends isWord ((accepts_ofTerm_of_star ends).mp accepted)
      · exact .word star ((accepts_ofTerm_of_no_star star).mp accepted ▸ isWord)

end Patterns

/-- Without the term `*` a document is found by the patterns of the terms. -/
theorem found_iff_finds
    {query key text : String}
    (noStar : "*" ∉ Text.words query) :
    found ((Text.words query).map TermPattern.ofTerm) ⟨key, wordsOf text⟩ = true ↔
      Finds query text := by
  simp only [found, List.any_eq_true, List.mem_map, exists_exists_and_eq_and, Finds, termFinds_iff]
  constructor
  · rintro ⟨word, isWord, term, isTerm, accepted⟩
    exact ⟨term, isTerm, .inr ⟨word, isWord, accepted⟩⟩
  · rintro ⟨term, isTerm, rfl | ⟨word, isWord, accepted⟩⟩
    · exact absurd isTerm noStar
    · exact ⟨word, isWord, term, isTerm, accepted⟩

instance (term text : String) : Decidable (TermFinds term text) :=
  decidable_of_iff _ termFinds_iff.symm

instance (query text : String) : Decidable (Finds query text) :=
  inferInstanceAs (Decidable (∃ term ∈ Text.words query, TermFinds term text))

/-- The keys of the documents in an index whose texts are found, oldest first. -/
def keysFound
    (entries : List Entry)
    (index : String)
    (found : String → Prop)
    [DecidablePred found] :
    List String :=
  (entries.filter fun entry => entry.index = index ∧ found entry.text).map (·.key)

/-- The documents of an index, oldest first. -/
def documentsOf
    (entries : List Entry)
    (index : String) :
    List Document :=
  (entries.filter (·.index = index)).map fun entry => ⟨entry.key, wordsOf entry.text⟩

section Search

variable {entries : List Entry} {index query : String}

theorem ofEntries_append_singleton
    (entry : Entry) :
    ofEntries (entries ++ [entry]) = (ofEntries entries).add entry.index entry.key entry.text := by
  simp [ofEntries]

/-- An index is there once a document was added to it, and has all that were. -/
theorem get?_ofEntries
    (entries : List Entry)
    (index : String) :
    (ofEntries entries).indexes.get? index =
      if documentsOf entries index = [] then none else some (documentsOf entries index) := by
  induction entries using List.reverseRecOn with
  | nil => rfl
  | append_singleton entries entry inductionHypothesis =>
      rw [ofEntries_append_singleton, add, NameMap.get?_insert]
      by_cases isIndex : index = entry.index
      · subst isIndex
        rw [if_pos rfl, inductionHypothesis]
        by_cases noDocuments : documentsOf entries entry.index = []
        · have noEntries := List.map_eq_nil_iff.mp noDocuments
          simp [documentsOf, noEntries]
        · rw [if_neg noDocuments]
          simp [documentsOf]
      · rw [if_neg isIndex, inductionHypothesis]
        have same : documentsOf (entries ++ [entry]) index = documentsOf entries index := by
          simp [documentsOf, Ne.symm isIndex]
        rw [same]

/-- A search of an index that is there answers the keys of what the query finds. -/
theorem search_ofEntries
    (known : ∃ entry ∈ entries, entry.index = index)
    (query : String) :
    (ofEntries entries).search index query = .ok (keysFound entries index (Finds query)) := by
  obtain ⟨entry, isEntry, isIndex⟩ := known
  have someDocument : documentsOf entries index ≠ [] := by
    simp only [documentsOf, ne_eq, List.map_eq_nil_iff, List.filter_eq_nil_iff]
    exact fun none => none entry isEntry (by simpa using isIndex)
  rw [search, get?_ofEntries, if_neg someDocument]
  dsimp only
  by_cases star : "*" ∈ Text.words query
  · have all : ∀ text, Finds query text := fun text => ⟨"*", star, .everything rfl⟩
    rw [if_pos (by simpa using star)]
    simp [documentsOf, keysFound, all, Function.comp_def]
  · rw [if_neg (by simpa using star)]
    have isFound : found ((Text.words query).map TermPattern.ofTerm) ∘
        (fun entry : Entry => ⟨entry.key, wordsOf entry.text⟩) =
          fun entry => decide (Finds query entry.text) := by
      funext entry
      rw [Function.comp_apply, Bool.eq_iff_iff, found_iff_finds star, decide_eq_true_eq]
    simp [documentsOf, keysFound, List.filter_map, List.filter_filter, isFound,
      Function.comp_def, Bool.and_comm]

end Search

section Finding

variable {query other text : String}

/-- Two queries one behind the other find what either of them finds. -/
theorem finds_append
    (first second text : String) :
    Finds (first ++ " " ++ second) text ↔ Finds first text ∨ Finds second text := by
  simp only [Finds, Text.words_append_blank, List.mem_append, or_and_right, exists_or]

/-- What a query finds depends on the set of its terms only. -/
theorem finds_congr_terms
    (sameTerms : ∀ term, term ∈ Text.words query ↔ term ∈ Text.words other) :
    Finds query text ↔ Finds other text := by
  simp only [Finds, sameTerms]

/-- A query with the term `*` finds every text. -/
theorem finds_of_star
    (star : "*" ∈ Text.words query)
    (text : String) :
    Finds query text :=
  ⟨"*", star, .everything rfl⟩

/-- The words of an ASCII text are the pieces of its lower case. -/
theorem wordsOf_of_ascii
    (ascii : Text.IsAscii text.toList) :
    wordsOf text = (Text.pieces (fun c => !Text.isAlphanumeric c)
      (text.toList.map Char.toLower)).map String.ofList := by
  rw [wordsOf, Text.pieces_map fun c member => by rw [Text.isAlphanumeric_toLower (ascii c member)],
    List.map_map]
  refine List.map_congr_left fun piece isPiece => ?_
  have pieceAscii : Text.IsAscii (String.ofList piece).toList := by
    rw [String.toList_ofList]
    exact fun c member => ascii c (Text.mem_of_mem_pieces isPiece member)
  rw [← String.toList_inj, Text.toList_lowercase_of_ascii pieceAscii]
  simp

/-- An ASCII term finds what its lower case finds. -/
theorem termFinds_toLower
    {term : List Char}
    (ascii : Text.IsAscii term) :
    TermFinds (String.ofList (term.map Char.toLower)) text ↔
      TermFinds (String.ofList term) text := by
  have lowered : Text.lowercase (String.ofList (term.map Char.toLower)) =
      Text.lowercase (String.ofList term) := by
    rw [← String.toList_inj, Text.toList_lowercase_of_ascii (by simpa using ascii.map_toLower),
      Text.toList_lowercase_of_ascii (by simpa using ascii)]
    simp
  have isStar : String.ofList (term.map Char.toLower) = "*" ↔ String.ofList term = "*" := by
    simp only [← String.toList_inj, String.toList_ofList]
    constructor
    · intro isLowered
      obtain ⟨c, rfl, isStar⟩ := List.map_eq_singleton_iff.mp isLowered
      rw [(Text.toLower_eq_star (ascii c List.mem_cons_self)).mp isStar]
      rfl
    · intro isTerm
      rw [isTerm]
      rfl
  simp only [termFinds_iff, TermPattern.ofTerm, lowered, isStar]

/-- An ASCII query finds what the pieces of its lower case find. -/
theorem finds_of_ascii
    (ascii : Text.IsAscii query.toList) :
    Finds query text ↔
      ∃ piece ∈ Text.pieces Text.isBlank (query.toList.map Char.toLower),
        TermFinds (String.ofList piece) text := by
  rw [Text.pieces_map fun c member => Text.isBlank_toLower (ascii c member)]
  simp only [Finds, Text.words, List.mem_map, exists_exists_and_eq_and]
  refine exists_congr fun piece => and_congr_right fun isPiece => ?_
  exact (termFinds_toLower fun c member => ascii c (Text.mem_of_mem_pieces isPiece member)).symm

/-- Letter case on either side does not matter in ASCII. -/
theorem finds_congr_letters
    {sameText : String}
    (sameQuery : Text.SameLetters query other)
    (sameTexts : Text.SameLetters text sameText) :
    Finds query text ↔ Finds other sameText := by
  have sameWords : wordsOf text = wordsOf sameText := by
    rw [wordsOf_of_ascii sameTexts.ascii, wordsOf_of_ascii sameTexts.otherAscii, sameTexts.same]
  rw [finds_of_ascii sameQuery.ascii, finds_of_ascii sameQuery.otherAscii, sameQuery.same]
  simp only [termFinds_iff, sameWords]

end Finding

section Keys

variable {entries others : List Entry} {index : String} {found : String → Prop}
  {alsoFound : String → Prop} [DecidablePred found] [DecidablePred alsoFound]

/-- Which documents are found decides which keys are. -/
theorem keysFound_congr
    (same : ∀ text, found text ↔ alsoFound text) :
    keysFound entries index found = keysFound entries index alsoFound := by
  simp only [keysFound, same]

/-- Documents with the same indexes and keys of which the same are found. -/
theorem keysFound_congr_entries
    (alike : List.Forall₂ (fun entry other => entry.index = other.index ∧ entry.key = other.key ∧
      (found entry.text ↔ alsoFound other.text)) entries others) :
    keysFound entries index found = keysFound others index alsoFound := by
  induction alike with
  | nil => rfl
  | cons alike _ inductionHypothesis =>
      obtain ⟨sameIndex, sameKey, sameFound⟩ := alike
      simp only [keysFound, List.filter_cons, sameIndex, sameFound] at inductionHypothesis ⊢
      split <;> simp only [List.map_cons, sameKey, inductionHypothesis]

/-- Only the documents of the index count. -/
theorem keysFound_filter
    (entries : List Entry) :
    keysFound (entries.filter (·.index = index)) index found = keysFound entries index found := by
  have twice : ∀ entry : Entry, (decide (entry.index = index ∧ found entry.text) &&
      decide (entry.index = index)) = decide (entry.index = index ∧ found entry.text) := by
    intro entry
    by_cases isIndex : entry.index = index <;> simp [isIndex]
  simp only [keysFound, List.filter_filter, twice]

end Keys

/-- Two documents under one key of one index with texts of the same ASCII letters. -/
structure Entry.SameLetters (entry other : Entry) : Prop where
  sameIndex : entry.index = other.index
  sameKey : entry.key = other.key
  sameText : Text.SameLetters entry.text other.text

/--
What a search in an index of a memory answers: the keys of the documents that one of the
terms finds, in the order in which they were added, one for each.
-/
structure SearchesByTerms
    (entries : List Entry)
    (index : String) :
    Prop where
  /-- A query answers what its terms find. -/
  terms : ∀ query,
    (ofEntries entries).search index query = .ok (keysFound entries index (Finds query))
  /-- Two queries with a blank between them answer what either of them finds. -/
  either : ∀ first second,
    (ofEntries entries).search index (first ++ " " ++ second) =
      .ok (keysFound entries index fun text => Finds first text ∨ Finds second text)
  /-- Neither the order of the terms nor how often they stand there matters. -/
  sameTerms : ∀ query other, (∀ term, term ∈ Text.words query ↔ term ∈ Text.words other) →
    (ofEntries entries).search index query = (ofEntries entries).search index other
  /-- With the term `*` the answer is all documents of the index. -/
  everything : ∀ query, "*" ∈ Text.words query →
    (ofEntries entries).search index query = .ok (keysFound entries index fun _ => True)
  /-- Documents of other indexes do not matter. -/
  otherIndexes : ∀ others : List Entry,
    others.filter (·.index = index) = entries.filter (·.index = index) → ∀ query,
      (ofEntries others).search index query = (ofEntries entries).search index query
  /-- Letter case does not matter where texts and queries are ASCII. -/
  letterCase : ∀ others, List.Forall₂ Entry.SameLetters entries others → ∀ query other,
    Text.SameLetters query other →
      (ofEntries entries).search index query = (ofEntries others).search index other

section Main

variable {entries : List Entry} {index : String}

theorem exists_entry_iff
    (entries : List Entry)
    (index : String) :
    (∃ entry ∈ entries, entry.index = index) ↔ entries.filter (·.index = index) ≠ [] := by
  simp [List.filter_eq_nil_iff]

/-- A search in an index that is there is the union of what its terms find. -/
theorem searchesByTerms
    (known : ∃ entry ∈ entries, entry.index = index) :
    SearchesByTerms entries index where
  terms := search_ofEntries known
  either first second := by
    rw [search_ofEntries known, keysFound_congr (finds_append first second)]
  sameTerms query other sameTerms := by
    rw [search_ofEntries known, search_ofEntries known,
      keysFound_congr fun text => finds_congr_terms sameTerms]
  everything query star := by
    rw [search_ofEntries known,
      keysFound_congr fun text => iff_true_intro (finds_of_star star text)]
  otherIndexes others sameDocuments query := by
    have otherKnown : ∃ entry ∈ others, entry.index = index := by
      rwa [exists_entry_iff, sameDocuments, ← exists_entry_iff]
    rw [search_ofEntries known, search_ofEntries otherKnown, ← keysFound_filter others,
      sameDocuments, keysFound_filter]
  letterCase others sameEntries query other sameQuery := by
    obtain ⟨entry, isEntry, isIndex⟩ := known
    obtain ⟨same, isOther, alike⟩ := List.exists_of_forall₂_right sameEntries.flip isEntry
    rw [search_ofEntries ⟨entry, isEntry, isIndex⟩,
      search_ofEntries ⟨same, isOther, alike.sameIndex ▸ isIndex⟩]
    refine congrArg _ (keysFound_congr_entries (sameEntries.imp fun entry other alike => ?_))
    exact ⟨alike.sameIndex, alike.sameKey, finds_congr_letters sameQuery alike.sameText⟩

end Main

/-- Two documents under one key stay two, and a document without words is there for `*`. -/
theorem searchesByTerms_acme :
    (∃ entry ∈ [Entry.mk "customers" "A" "Acme Trading", ⟨"orders", "1", "acme"⟩,
        ⟨"customers", "A", "ACMELAND"⟩, ⟨"customers", "B", "--"⟩],
      entry.index = "customers") ∧
    SearchesByTerms [⟨"customers", "A", "Acme Trading"⟩, ⟨"orders", "1", "acme"⟩,
      ⟨"customers", "A", "ACMELAND"⟩, ⟨"customers", "B", "--"⟩] "customers" :=
  have known : ∃ entry ∈ [Entry.mk "customers" "A" "Acme Trading", ⟨"orders", "1", "acme"⟩,
      ⟨"customers", "A", "ACMELAND"⟩, ⟨"customers", "B", "--"⟩], entry.index = "customers" := by
    decide
  ⟨known, searchesByTerms known⟩

end MemoryIndex

end FullTextQuery
