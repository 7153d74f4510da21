import FullTextQuery.Decimal.Integer

namespace FullTextQuery.Query

/-!
# Lexemes

The smallest units of query text, each as a function that takes it off the
front of a list of characters: layout, keywords, identifiers, numbers, quoted
texts and comparison operators.  Nothing here skips layout inside a unit.
-/

/-- Whether a character separates units. -/
def isSpace
    (c : Char) :
    Bool :=
  c == ' ' || c == '\t' || c == '\r' || c == '\n'

/-- Where in layout a scan stands; an open block remembers where it began. -/
inductive LayoutMode where
  | between
  | line
  | block (start : List Char)
  deriving Repr, DecidableEq

/--
The text behind layout: white space, comments from `--` to the end of a line,
and comments between `/*` and the next `*/`.  A block that is never closed is
not layout.
-/
def skipLayout : LayoutMode → List Char → List Char
  | .between, [] => []
  | .between, '/' :: '*' :: rest => skipLayout (.block ('/' :: '*' :: rest)) rest
  | .between, '-' :: '-' :: rest => skipLayout .line rest
  | .between, c :: rest => if isSpace c then skipLayout .between rest else c :: rest
  | .line, [] => []
  | .line, c :: rest =>
      if c == '\n' || c == '\r' then skipLayout .between rest else skipLayout .line rest
  | .block start, [] => start
  | .block _, '*' :: '/' :: rest => skipLayout .between rest
  | .block start, _ :: rest => skipLayout (.block start) rest

/-- Whether a character can begin an identifier. -/
def isNameStart
    (c : Char) :
    Bool :=
  c.isAlpha || c == '_'

/-- Whether a character can continue an identifier. -/
def isNameChar
    (c : Char) :
    Bool :=
  c.isAlphanum || c == '_'

/-- The words that are no identifiers, in lower case. -/
def reservedWords : List (List Char) :=
  ["from", "in", "join", "on", "where", "select", "order", "by", "asc", "desc", "take",
    "and", "or", "not", "null", "like"].map String.toList

/-- The text behind a word given in lower case, in whatever case it is written. -/
def afterWord? : List Char → List Char → Option (List Char)
  | [], rest => some rest
  | expected :: word, c :: rest => if c.toLower = expected then afterWord? word rest else none
  | _ :: _, [] => none

/-- Whether a text goes on with a character of an identifier. -/
def continuesName : List Char → Bool
  | [] => false
  | c :: _ => isNameChar c

/-- A whole word in any case. -/
def scanWord?
    (word : List Char)
    (cs : List Char) :
    Option (Unit × List Char) :=
  match afterWord? word cs with
  | some rest => if continuesName rest then none else some ((), rest)
  | none => none

/--
A letter or an underscore, and all letters, digits and underscores behind it, unless
reserved.
-/
def scanName?
    (cs : List Char) :
    Option (String × List Char) :=
  match cs with
  | c :: rest =>
      let name := c :: rest.takeWhile isNameChar
      if isNameStart c && !reservedWords.contains (name.map Char.toLower) then
        some (String.ofList name, rest.dropWhile isNameChar)
      else
        none
  | [] => none

/-- A minus sign if there is one, and at least one digit. -/
def scanInteger?
    (cs : List Char) :
    Option (List Char × List Char) :=
  let (sign, unsigned) :=
    match cs with
    | '-' :: rest => (['-'], rest)
    | _ => ([], cs)
  match unsigned.takeWhile Decimal.isDigit with
  | [] => none
  | digits => some (sign ++ digits, unsigned.dropWhile Decimal.isDigit)

/--
The parts of a number with a fraction: whether it is negative, the digits before and
after the point.
-/
structure Fraction where
  negative : Bool
  whole : List Char
  fraction : List Char
  deriving Repr, DecidableEq

/-- An integer, a point and at least one more digit. -/
def scanReal?
    (cs : List Char) :
    Option (Fraction × List Char) :=
  let (negative, unsigned) :=
    match cs with
    | '-' :: rest => (true, rest)
    | _ => (false, cs)
  match unsigned.takeWhile Decimal.isDigit, unsigned.dropWhile Decimal.isDigit with
  | [], _ => none
  | whole, '.' :: rest =>
      match rest.takeWhile Decimal.isDigit with
      | [] => none
      | fraction => some (⟨negative, whole, fraction⟩, rest.dropWhile Decimal.isDigit)
  | _, _ => none

/-- The characters up to a lone `quote`, which is taken too; two in a row stand for one. -/
def scanQuoted?
    (quote : Char) :
    List Char → Option (List Char × List Char)
  | [] => none
  | [c] => if c = quote then some ([], []) else none
  | c :: d :: rest =>
      if c = quote then
        if d = quote then
          (scanQuoted? quote rest).map fun found => (quote :: found.1, found.2)
        else
          some ([], d :: rest)
      else
        (scanQuoted? quote (d :: rest)).map fun found => (c :: found.1, found.2)

/-- A text in double or single quotes. -/
def scanText? : List Char → Option (String × List Char)
  | '"' :: rest => (scanQuoted? '"' rest).map fun found => (String.ofList found.1, found.2)
  | '\'' :: rest => (scanQuoted? '\'' rest).map fun found => (String.ofList found.1, found.2)
  | _ => none

end FullTextQuery.Query
