import FullTextQuery.Text.Hexadecimal

namespace FullTextQuery.Toml

/-!
# Quoted texts of TOML

A text stands in double quotes, where a backslash begins an escape, or in single
quotes, where every character stands for itself.  Three quotes instead of one
allow several lines.  All readers here start behind the opening quotes.
-/

/-- Whether a character may stand on a line of a text or of a comment. -/
def isLineChar
    (c : Char) :
    Bool :=
  c == '\t' || (decide (0x20 ≤ c.toNat) && c != '\x7f')

/-- The character of an escape with one letter. -/
def letterEscape?
    (c : Char) :
    Option Char :=
  match c with
  | '"' => some '"'
  | '\\' => some '\\'
  | 'b' => some '\u0008'
  | 'e' => some '\u001b'
  | 'f' => some '\u000c'
  | 'n' => some '\n'
  | 'r' => some '\r'
  | 't' => some '\t'
  | _ => none

/-- The number of hexadecimal digits that follow the letter of an escape. -/
def escapeWidth?
    (c : Char) :
    Option Nat :=
  match c with
  | 'x' => some 2
  | 'u' => some 4
  | 'U' => some 8
  | _ => none

/-- The number that hexadecimal digits spell. -/
def hexNumber?
    (digits : List Char) :
    Option Nat :=
  digits.foldlM (fun value c => (Text.hexValue? c).map (value * 16 + ·)) 0

/-- The character with a code in hexadecimal digits; a surrogate is no character. -/
def hexChar?
    (digits : List Char) :
    Option Char := do
  let code ← hexNumber? digits
  if code.isValidChar then some (Char.ofNat code) else none

/-- The character of an escape, and the text behind it. -/
def escape? :
    List Char → Option (Char × List Char)
  | [] => none
  | c :: rest =>
      match escapeWidth? c with
      | none => (letterEscape? c).map (·, rest)
      | some width =>
          if rest.length < width then none
          else (hexChar? (rest.take width)).map (·, rest.drop width)

/-- Put a character in front of what was read. -/
def consChar
    (c : Char)
    (found : List Char × List Char) :
    List Char × List Char :=
  (c :: found.1, found.2)

/-- A text in double quotes on one line, with the text behind it. -/
def readBasic :
    (fuel : Nat) → List Char → Option (List Char × List Char)
  | 0, _ => none
  | _ + 1, [] => none
  | _ + 1, '"' :: rest => some ([], rest)
  | fuel + 1, '\\' :: rest => do
      let (c, rest) ← escape? rest
      return consChar c (← readBasic fuel rest)
  | fuel + 1, c :: rest =>
      if isLineChar c then (readBasic fuel rest).map (consChar c) else none

/-- A text in single quotes on one line, with the text behind it. -/
def readLiteral
    (cs : List Char) :
    Option (List Char × List Char) :=
  let inside := fun c => isLineChar c && c != '\''
  match cs.dropWhile inside with
  | '\'' :: rest => some (cs.takeWhile inside, rest)
  | _ => none

/-- The text behind a line end, if there is one. -/
def behindLineEnd? :
    List Char → Option (List Char)
  | '\n' :: rest => some rest
  | '\r' :: '\n' :: rest => some rest
  | _ => none

/-- The end of a text in three quotes: up to two more quotes belong to the text. -/
def closeThree
    (quote : Char)
    (rest : List Char) :
    List Char × List Char :=
  let inside := (rest.takeWhile (· == quote)).take 2
  (inside, rest.drop inside.length)

/-- Whether a character is a blank on a line. -/
def isSpace
    (c : Char) :
    Bool :=
  c == ' ' || c == '\t'

/-- The text behind blanks and line ends. -/
def skipLineEnds :
    List Char → List Char
  | '\r' :: '\n' :: rest => skipLineEnds rest
  | c :: rest => if isSpace c || c == '\n' then skipLineEnds rest else c :: rest
  | [] => []

/--
A text in three double quotes, with the text behind it.  A backslash at the end
of a line joins the line to the next character that is not blank.
-/
def readBasicLines :
    (fuel : Nat) → List Char → Option (List Char × List Char)
  | 0, _ => none
  | _ + 1, [] => none
  | _ + 1, '"' :: '"' :: '"' :: rest => some (closeThree '"' rest)
  | fuel + 1, '\\' :: rest =>
      match behindLineEnd? (rest.dropWhile isSpace) with
      | some after => readBasicLines fuel (skipLineEnds after)
      | none => do
          let (c, rest) ← escape? rest
          return consChar c (← readBasicLines fuel rest)
  | fuel + 1, '\r' :: '\n' :: rest =>
      (readBasicLines fuel rest).map fun found => consChar '\r' (consChar '\n' found)
  | fuel + 1, c :: rest =>
      if isLineChar c || c == '\n' then (readBasicLines fuel rest).map (consChar c) else none

/-- A text in three single quotes, with the text behind it. -/
def readLiteralLines :
    List Char → Option (List Char × List Char)
  | [] => none
  | '\'' :: '\'' :: '\'' :: rest => some (closeThree '\'' rest)
  | '\r' :: '\n' :: rest =>
      (readLiteralLines rest).map fun found => consChar '\r' (consChar '\n' found)
  | c :: rest =>
      if isLineChar c || c == '\n' then (readLiteralLines rest).map (consChar c) else none

/-- A text in quotes of any kind; a line end right behind three opening quotes does not count. -/
def readText? :
    List Char → Option (String × List Char)
  | '"' :: '"' :: '"' :: rest =>
      let body := (behindLineEnd? rest).getD rest
      (readBasicLines (body.length + 1) body).map fun found => (String.ofList found.1, found.2)
  | '\'' :: '\'' :: '\'' :: rest =>
      (readLiteralLines ((behindLineEnd? rest).getD rest)).map fun found =>
        (String.ofList found.1, found.2)
  | '"' :: rest =>
      (readBasic (rest.length + 1) rest).map fun found => (String.ofList found.1, found.2)
  | '\'' :: rest => (readLiteral rest).map fun found => (String.ofList found.1, found.2)
  | _ => none

end FullTextQuery.Toml
