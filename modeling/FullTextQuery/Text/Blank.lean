import FullTextQuery.Text.CodeRange

namespace FullTextQuery.Text

/-!
# White space

The characters with the Unicode property `White_Space`, and the two operations
that depend on them: cutting them off both ends of a text, and splitting a text
into the pieces between them.
-/

/-- The ranges of the property `White_Space`. -/
def blankRanges : List (Nat × Nat) :=
  [(9, 13), (32, 32), (133, 133), (160, 160), (5760, 5760), (8192, 8202),
   (8232, 8233), (8239, 8239), (8287, 8287), (12288, 12288)]

/-- Whether a character is white space. -/
def isBlank
    (c : Char) :
    Bool :=
  inRanges blankRanges c.toNat

/-- The characters without white space at either end. -/
def trimBlanks
    (cs : List Char) :
    List Char :=
  ((cs.dropWhile isBlank).reverse.dropWhile isBlank).reverse

/-- The text without white space at either end. -/
def trim
    (text : String) :
    String :=
  String.ofList (trimBlanks text.toList)

/--
The maximal non-empty pieces of characters that a separator class leaves, in
order.
-/
def pieces
    (separates : Char → Bool) :
    List Char → List (List Char)
  | [] => []
  | c :: rest =>
      if separates c then
        pieces separates rest
      else
        match rest, pieces separates rest with
        | d :: _, piece :: others =>
            if separates d then [c] :: piece :: others
            else (c :: piece) :: others
        | _, others => [c] :: others

/-- The pieces of a text between white space. -/
def words
    (text : String) :
    List String :=
  (pieces isBlank text.toList).map String.ofList

end FullTextQuery.Text
