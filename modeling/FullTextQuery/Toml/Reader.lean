import FullTextQuery.Toml.Moment
import FullTextQuery.Toml.Number
import FullTextQuery.Toml.Quoted
import FullTextQuery.Toml.Table

namespace FullTextQuery.Toml

/-!
# Reading TOML

A TOML text is read into a JSON document: tables become objects, and dates and
times become texts in normal form.  What the format forbids is refused as a whole:
a name given twice, a table declared twice, text behind a value, control
characters.
-/

/-- The text behind blanks, line ends and comments; the latter hold no control characters. -/
def skipLines
    (inComment : Bool) :
    List Char → Option (List Char)
  | [] => some []
  | '\n' :: rest => skipLines false rest
  | '\r' :: '\n' :: rest => skipLines false rest
  | c :: rest =>
      if inComment then
        if isLineChar c then skipLines true rest else none
      else if isSpace c then
        skipLines false rest
      else if c = '#' then
        skipLines true rest
      else
        some (c :: rest)

/-- Whether nothing but blanks and a comment can follow on the line. -/
def lineEnds
    (cs : List Char) :
    Bool :=
  match cs.dropWhile isSpace with
  | [] => true
  | c :: rest => c == '#' || (behindLineEnd? (c :: rest)).isSome

/--
The text behind the rest of a line that holds nothing more, and behind the lines that
hold nothing.
-/
def nextLine?
    (cs : List Char) :
    Option (List Char) :=
  if lineEnds cs then skipLines false cs else none

/-- Whether a character may stand in a name without quotes. -/
def isNameChar
    (c : Char) :
    Bool :=
  c.isAlphanum || c == '_' || c == '-'

/-- A name with or without quotes, and the text behind it. -/
def readName?
    (cs : List Char) :
    Option (String × List Char) :=
  match cs.takeWhile isNameChar, cs with
  | [], '"' :: rest =>
      (readBasic (rest.length + 1) rest).map fun found => (String.ofList found.1, found.2)
  | [], '\'' :: rest => (readLiteral rest).map fun found => (String.ofList found.1, found.2)
  | [], _ => none
  | name, _ => some (String.ofList name, cs.dropWhile isNameChar)

/-- A dotted name: the names before the last one, the last one, and the text behind blanks. -/
def readPath :
    (fuel : Nat) → List Char → Option (List String × String × List Char)
  | 0, _ => none
  | fuel + 1, cs => do
      let (name, rest) ← readName? (cs.dropWhile isSpace)
      match rest.dropWhile isSpace with
      | '.' :: more => do
          let (path, last, after) ← readPath fuel more
          return (name :: path, last, after)
      | after => return ([], name, after)

/-- The dotted name at the beginning of a text. -/
def readPath?
    (cs : List Char) :
    Option (List String × String × List Char) :=
  readPath (cs.length + 1) cs

/-- Whether a character ends a value without quotes. -/
def endsWord
    (c : Char) :
    Bool :=
  isSpace c || c == '\n' || c == '\r' || c == ',' || c == ']' || c == '\x7d' || c == '#'

/-- What a value without quotes says. -/
def ofWord?
    (word : List Char) :
    Option Json :=
  match String.ofList word with
  | "true" => some (.bool true)
  | "false" => some (.bool false)
  | _ =>
      match integer? word, real? word, Moment.ofText? word with
      | some n, _, _ => some (.integer n)
      | none, some x, _ => some (.real x)
      | none, none, some moment => some (.string moment.text)
      | none, none, none => none

/-- A value without quotes; behind a date, a blank and a digit begin the time of day. -/
def readWord?
    (cs : List Char) :
    Option (Json × List Char) :=
  let word := cs.takeWhile (!endsWord ·)
  let rest := cs.dropWhile (!endsWord ·)
  match Date.read? word, rest with
  | some (_, []), ' ' :: c :: _ =>
      if Decimal.isDigit c then
        let after := rest.drop 1
        (ofWord? (word ++ ' ' :: after.takeWhile (!endsWord ·))).map
          (·, after.dropWhile (!endsWord ·))
      else
        (ofWord? word).map (·, rest)
  | _, _ => (ofWord? word).map (·, rest)

mutual

/-- A value, with at most `depth` arrays and tables in braces around one another. -/
def readValue : (fuel depth : Nat) → List Char → Option (Json × List Char)
  | 0, _, _ => none
  | fuel + 1, depth, cs =>
      match cs, depth with
      | '[' :: _, 0 => none
      | '[' :: rest, depth + 1 =>
          (readItems fuel depth rest).map fun found => (.array found.1, found.2)
      | '\x7b' :: _, 0 => none
      | '\x7b' :: rest, depth + 1 =>
          (readPairs fuel depth [] rest).map fun found =>
            ((Node.table .declared found.1).document, found.2)
      | c :: rest, _ =>
          if c = '"' ∨ c = '\'' then
            (readText? (c :: rest)).map fun found => (.string found.1, found.2)
          else
            readWord? (c :: rest)
      | [], _ => none

/-- The items of an array up to its closing bracket; a comma may stand behind the last one. -/
def readItems : (fuel depth : Nat) → List Char → Option (List Json × List Char)
  | 0, _, _ => none
  | fuel + 1, depth, cs => do
      match ← skipLines false cs with
      | ']' :: after => return ([], after)
      | start => do
          let (item, rest) ← readValue fuel depth start
          match ← skipLines false rest with
          | ']' :: after => return ([item], after)
          | ',' :: more => do
              let (items, after) ← readItems fuel depth more
              return (item :: items, after)
          | _ => none

/--
The entries of a table in braces up to the closing one; a comma may stand behind the
last one.
-/
def readPairs : (fuel depth : Nat) → Members → List Char → Option (Members × List Char)
  | 0, _, _, _ => none
  | fuel + 1, depth, members, cs => do
      match ← skipLines false cs with
      | '\x7d' :: after => return (members, after)
      | start => do
          let (path, name, rest) ← readPath? start
          match rest with
          | '=' :: rest => do
              let (value, rest) ← readValue fuel depth (rest.dropWhile isSpace)
              let members ← members.assign path name value
              match ← skipLines false rest with
              | '\x7d' :: after => return (members, after)
              | ',' :: more => readPairs fuel depth members more
              | _ => none
          | _ => none

end

/-- The most arrays and tables in braces around one another. -/
def depthLimit : Nat :=
  80

/-- What was read of a text: the entries of the whole, and the header that is in force. -/
structure Draft where
  members : Members := []
  header : List String := []

namespace Draft

/-- Read the header or the entry at the beginning of a text. -/
def step?
    (draft : Draft) :
    List Char → Option (Draft × List Char)
  | '[' :: '[' :: rest => do
      let (path, name, rest) ← readPath? rest
      match rest with
      | ']' :: ']' :: after =>
          return (⟨← draft.members.declareNext path name, path ++ [name]⟩, after)
      | _ => none
  | '[' :: rest => do
      let (path, name, rest) ← readPath? rest
      match rest with
      | ']' :: after => return (⟨← draft.members.declare path name, path ++ [name]⟩, after)
      | _ => none
  | cs => do
      let (path, name, rest) ← readPath? cs
      match rest with
      | '=' :: rest => do
          let start := rest.dropWhile isSpace
          let (value, after) ← readValue (start.length + 1) depthLimit start
          return ({ draft with
            members := ← draft.members.assignBelow draft.header path name value }, after)
      | _ => none

/-- Read all headers and entries. -/
def readAll :
    (fuel : Nat) → Draft → List Char → Option Draft
  | 0, _, _ => none
  | fuel + 1, draft, cs =>
      match cs with
      | [] => some draft
      | _ => do
          let (draft, rest) ← draft.step? cs
          readAll fuel draft (← nextLine? rest)

end Draft

/-- The text behind a byte-order mark, if there is one. -/
def dropMark : List Char → List Char
  | '\ufeff' :: rest => rest
  | cs => cs

/-- The document that a whole text spells. -/
def read?
    (text : String) :
    Option Json := do
  let cs ← skipLines false (dropMark text.toList)
  let draft ← Draft.readAll (cs.length + 1) {} cs
  return (Node.table .declared draft.members).document

end FullTextQuery.Toml
