import FullTextQuery.Binary64.Text
import FullTextQuery.Text.Hexadecimal

namespace FullTextQuery

/-!
# JSON documents

Numbers keep integers apart from other numbers, and the members of an object
are kept in the order of their names, each name once.
-/

/-- A JSON document. -/
inductive Json where
  | null
  | bool (b : Bool)
  | integer (n : Int)
  | real (x : Binary64)
  | string (s : String)
  | array (items : List Json)
  | object (members : List (String × Json))
  deriving Repr, Inhabited

namespace Json

/-- Put a member in its place; an earlier one of the same name is lost. -/
def insertMember
    (name : String)
    (value : Json) :
    List (String × Json) → List (String × Json)
  | [] => [(name, value)]
  | (other, old) :: rest =>
      if name = other then (name, value) :: rest
      else if name < other then (name, value) :: (other, old) :: rest
      else (other, old) :: insertMember name value rest

/-- The object with some members, of which the later ones win. -/
def ofMembers
    (members : List (String × Json)) :
    Json :=
  .object (members.foldl (fun sorted entry => insertMember entry.1 entry.2 sorted) [])

/-- A member of an object. -/
def member?
    (name : String) :
    Json → Option Json
  | .object members => members.lookup name
  | _ => none

/-- A character inside a quoted text. -/
def escapeChar
    (c : Char) :
    List Char :=
  if c = '"' then ['\\', '"']
  else if c = '\\' then ['\\', '\\']
  else if c = '\u0008' then ['\\', 'b']
  else if c = '\u000c' then ['\\', 'f']
  else if c = '\n' then ['\\', 'n']
  else if c = '\r' then ['\\', 'r']
  else if c = '\t' then ['\\', 't']
  else if c.toNat < 0x20 then
    ['\\', 'u', '0', '0', Text.lowerHexDigit (c.toNat / 16),
      Text.lowerHexDigit (c.toNat % 16)]
  else
    [c]

/-- A quoted text. -/
def quote
    (s : String) :
    String :=
  String.ofList ('"' :: s.toList.flatMap escapeChar ++ ['"'])

mutual

/-- The compact text of a document. -/
def print : Json → String
  | .null => "null"
  | .bool true => "true"
  | .bool false => "false"
  | .integer n => Decimal.ofInt n
  | .real x => x.toJsonNumber
  | .string s => quote s
  | .array items => "[" ++ printItems items ++ "]"
  | .object members => "\x7b" ++ printMembers members ++ "\x7d"

/-- The items of an array, with commas between them. -/
def printItems : List Json → String
  | [] => ""
  | [item] => item.print
  | item :: items => item.print ++ "," ++ printItems items

/-- The members of an object, with commas between them. -/
def printMembers : List (String × Json) → String
  | [] => ""
  | [(name, value)] => quote name ++ ":" ++ value.print
  | (name, value) :: members => quote name ++ ":" ++ value.print ++ "," ++ printMembers members

end

end Json

end FullTextQuery
