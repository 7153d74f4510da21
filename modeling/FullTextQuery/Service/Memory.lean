import FullTextQuery.Service.Basic
import FullTextQuery.NameMap
import FullTextQuery.Text.Alphanumeric
import FullTextQuery.Text.Blank
import FullTextQuery.Text.Lowercase

namespace FullTextQuery

/-!
# Search in memory

Documents are sets of lower-cased words under keys.  A query is a list of terms;
a document is found if any term matches any of its words.  A term that ends in
`*` matches by its beginning, and the term `*` finds every document.  Keys come
back in the order in which the documents were added.
-/

/-- A document: its key and its words in lower case. -/
structure Document where
  key : String
  words : List String
  deriving Repr, DecidableEq

/-- The documents of every index, oldest first. -/
structure MemoryIndex where
  indexes : NameMap (List Document) := .empty
  deriving Repr, DecidableEq

namespace MemoryIndex

/-- The index without documents. -/
def empty : MemoryIndex :=
  {}

/-- The words of a text: its maximal runs of alphanumeric characters, each in lower case. -/
def wordsOf
    (text : String) :
    List String :=
  (Text.pieces (fun c => !Text.isAlphanumeric c) text.toList).map fun piece =>
    Text.lowercase (String.ofList piece)

/-- Add a document to an index. -/
def add
    (memory : MemoryIndex)
    (index key text : String) :
    MemoryIndex :=
  let documents := (memory.indexes.get? index).getD []
  ⟨memory.indexes.insert index (documents ++ [⟨key, wordsOf text⟩])⟩

/-- What a term asks of a word. -/
inductive TermPattern where
  | word (text : List Char)
  | beginning (text : List Char)
  deriving Repr, DecidableEq

namespace TermPattern

/-- The pattern of a term. -/
def ofTerm
    (term : String) :
    TermPattern :=
  let lowered := (Text.lowercase term).toList
  match lowered.getLast? with
  | some '*' => .beginning lowered.dropLast
  | _ => .word lowered

/-- Whether a word matches. -/
def accepts
    (pattern : TermPattern)
    (word : String) :
    Bool :=
  match pattern with
  | .word text => word.toList == text
  | .beginning text => text.isPrefixOf word.toList

end TermPattern

/-- Whether any pattern matches any word of a document. -/
def found
    (patterns : List TermPattern)
    (document : Document) :
    Bool :=
  document.words.any fun word => patterns.any (·.accepts word)

/-- The keys of the documents of an index that a query finds. -/
def search
    (memory : MemoryIndex)
    (index query : String) :
    Except SearchError (List String) :=
  match memory.indexes.get? index with
  | none => .error (.unknownIndex index)
  | some documents =>
      let terms := Text.words query
      if terms.contains "*" then
        .ok (documents.map (·.key))
      else
        .ok ((documents.filter (found (terms.map TermPattern.ofTerm))).map (·.key))

/-- The search service over an index in memory; calls do not change it. -/
def service : SearchService MemoryIndex where
  search index text memory := ((memory.search index text).mapError .search, memory)

end MemoryIndex

end FullTextQuery
