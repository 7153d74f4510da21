import FullTextQuery.Decimal.Scientific
import FullTextQuery.Query.Lexeme

namespace FullTextQuery.Sql

/-!
# Tokens of SQL text

The units that statement text is made of.  A quoted name and a quoted text
write their quote twice inside.  Words are not yet told apart as keywords and
names.  The text ends at the first NUL that stands between tokens; inside
quotes there is none.
-/

/-- Punctuation and operators that are not words. -/
inductive Sign where
  | openParen
  | closeParen
  | comma
  | dot
  | minus
  | equal
  | notEqual
  | less
  | lessEqual
  | greater
  | greaterEqual
  deriving Repr, DecidableEq

/-- A unit of statement text. -/
inductive Token where
  | name (text : String)
  | word (text : String)
  | text (text : String)
  | number (numeral : Decimal.Numeral) (pointed : Bool)
  | parameter (name : String)
  | sign (sign : Sign)
  deriving Repr, DecidableEq

/-- Whether a character separates tokens. -/
def isBlank
    (c : Char) :
    Bool :=
  c == ' ' || c == '\t' || c == '\n' || c == '\x0c' || c == '\r'

/-- Whether a character can begin a word: a letter, an underscore or anything beyond ASCII. -/
def isWordStart
    (c : Char) :
    Bool :=
  c.isAlpha || c == '_' || decide (128 ≤ c.toNat)

/-- Whether a character can continue a word. -/
def isWordChar
    (c : Char) :
    Bool :=
  isWordStart c || Decimal.isDigit c || c == '$'

/-- The signs, longer spellings first. -/
def signs : List (List Char × Sign) :=
  [(['<', '='], .lessEqual), (['>', '='], .greaterEqual), (['<', '>'], .notEqual),
    (['!', '='], .notEqual), (['=', '='], .equal), (['<'], .less), (['>'], .greater),
    (['='], .equal), (['('], .openParen), ([')'], .closeParen), ([','], .comma),
    (['.'], .dot), (['-'], .minus)]

/-- The sign that a text begins with. -/
def scanSign?
    (cs : List Char) :
    Option (Token × List Char) :=
  match signs.find? fun entry => entry.1.isPrefixOf cs with
  | some (spelling, sign) => some (.sign sign, cs.drop spelling.length)
  | none => none

/-- What stands between quotes, up to the closing one. -/
def scanQuoted?
    (quote : Char)
    (cs : List Char) :
    Option (String × List Char) :=
  match Query.scanQuoted? quote cs with
  | some (inside, rest) =>
      if inside.contains '\x00' then none else some (String.ofList inside, rest)
  | none => none

/-- A number, which no word may touch. -/
def scanNumber?
    (cs : List Char) :
    Option (Token × List Char) :=
  match Decimal.numeral? cs with
  | some (numeral, pointed, rest) =>
      if (rest.takeWhile isWordChar).isEmpty then some (.number numeral pointed, rest) else none
  | none => none

/-- The name behind a colon. -/
def scanParameter?
    (cs : List Char) :
    Option (Token × List Char) :=
  match cs.takeWhile isWordChar with
  | [] => none
  | name => some (.parameter (String.ofList name), cs.dropWhile isWordChar)

/-- The token that a text begins with. -/
def scanToken? : List Char → Option (Token × List Char)
  | [] => none
  | c :: rest =>
      if c = '"' then
        (scanQuoted? '"' rest).map fun found => (.name found.1, found.2)
      else if c = '\'' then
        (scanQuoted? '\'' rest).map fun found => (.text found.1, found.2)
      else if c = ':' then
        scanParameter? rest
      else if isWordStart c then
        some
          (.word (String.ofList (c :: rest.takeWhile isWordChar)), rest.dropWhile isWordChar)
      else
        match scanNumber? (c :: rest) with
        | some found => some found
        | none => if Decimal.isDigit c then none else scanSign? (c :: rest)

/-- Whether a text has no more tokens. -/
def isEnd : List Char → Bool
  | [] => true
  | c :: _ => c == '\x00'

/-- The tokens of a text, at most `count` of them. -/
def scanTokens? : Nat → List Char → Option (List Token)
  | 0, cs => if isEnd (cs.dropWhile isBlank) then some [] else none
  | count + 1, cs =>
      let next := cs.dropWhile isBlank
      if isEnd next then
        some []
      else
        match scanToken? next with
        | some (token, rest) => (scanTokens? count rest).map (token :: ·)
        | none => none

/-- The tokens of a text, if it is made of tokens. -/
def tokens?
    (text : String) :
    Option (List Token) :=
  scanTokens? text.toList.length text.toList

end FullTextQuery.Sql
