import FullTextQuery.Error

namespace FullTextQuery

/-!
# Search services

A search service takes an index and a free text and answers the keys of the
matching documents, best match first.  It may have a state of its own, which
every call may change, also a failing one.
-/

/-- A search service with states in `σ`. -/
structure SearchService (σ : Type) where
  search : (index text : String) → σ → Except Error (List String) × σ

/-- The index and the text of a call. -/
structure SearchCall where
  index : String
  text : String
  deriving Repr, DecidableEq

namespace SearchService

/-- The same service with a log of the calls made, oldest first. -/
def recorded
    (service : SearchService σ) :
    SearchService (σ × List SearchCall) where
  search index text state :=
    let (answer, next) := service.search index text state.1
    (answer, (next, state.2 ++ [⟨index, text⟩]))

end SearchService

end FullTextQuery
