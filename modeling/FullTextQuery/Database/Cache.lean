import FullTextQuery.NameMap

namespace FullTextQuery

/-!
# Caches under texts

What was made from a text is kept under it.  When the cache is full, the entry that was
added first goes first, however often it was used since.
-/

/-- Things under texts, and the texts in the order in which they were added. -/
structure TextCache (α : Type) where
  capacity : Nat
  entries : NameMap α := .empty
  order : List String := []
  deriving Repr, DecidableEq

namespace TextCache

/-- The number of entries that a cache holds unless it is told otherwise. -/
def defaultCapacity : Nat := 256

/-- What is kept under a text. -/
def get?
    (cache : TextCache α)
    (text : String) :
    Option α :=
  cache.entries.get? text

/-- The number of entries. -/
def size
    (cache : TextCache α) :
    Nat :=
  cache.entries.size

/-- Drop the oldest entries until no more than `capacity` are left. -/
def evict
    (capacity : Nat)
    (entries : NameMap α) :
    List String → TextCache α
  | [] => ⟨capacity, entries, []⟩
  | oldest :: order =>
      if capacity < order.length + 1 then
        evict capacity (entries.erase oldest) order
      else
        ⟨capacity, entries, oldest :: order⟩

/--
Keep something under a text.  A text that is in the cache already keeps its
place; a cache of capacity zero keeps nothing.
-/
def insert
    (cache : TextCache α)
    (text : String)
    (value : α) :
    TextCache α :=
  if cache.capacity = 0 then
    cache
  else if cache.entries.contains text then
    { cache with entries := cache.entries.insert text value }
  else
    evict cache.capacity (cache.entries.insert text value) (cache.order ++ [text])

end TextCache

end FullTextQuery
