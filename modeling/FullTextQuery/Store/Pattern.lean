namespace FullTextQuery.Store

/-!
# Text patterns

In a pattern `%` stands for any run of characters and `_` for one character.
Other characters stand for themselves, ASCII letters in either case.
-/

/-- A text and everything that is left when characters are taken off its front. -/
def suffixes : List Char → List (List Char)
  | [] => [[]]
  | c :: rest => (c :: rest) :: suffixes rest

/-- Whether a pattern matches a whole text. -/
def matchesPattern : List Char → List Char → Bool
  | [], cs => cs.isEmpty
  | p :: pattern, cs =>
      if p = '%' then
        (suffixes cs).any (matchesPattern pattern)
      else
        match cs with
        | [] => false
        | c :: rest => (p == '_' || p.toLower == c.toLower) && matchesPattern pattern rest

/-- The characters before the first NUL, which ends a text for the store's functions. -/
def beforeNul
    (cs : List Char) :
    List Char :=
  cs.takeWhile (· != '\x00')

/-- Whether a text is like a pattern. -/
def isLike
    (pattern text : String) :
    Bool :=
  matchesPattern (beforeNul pattern.toList) (beforeNul text.toList)

end FullTextQuery.Store
