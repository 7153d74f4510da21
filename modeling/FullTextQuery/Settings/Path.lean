import FullTextQuery.Decimal.Integer
import FullTextQuery.Json.Basic

namespace FullTextQuery

/-!
# Places in settings

A source of settings names the place of each value by a path, such as
`search.endpoint` or `hosts[0].name`.  Putting a value at its place makes what is
missing on the way, replaces other values, and joins sections with sections, so that
a later source changes only what it names.
-/

/-- A step from a value into a section or into a list; negative places count from the end. -/
inductive PathStep where
  | name (name : String)
  | place (index : Int)
  deriving Repr, DecidableEq

/-- The way to a value from the section that holds everything. -/
abbrev SettingPath : Type :=
  List PathStep

namespace SettingPath

/-- Whether a character may stand in a name of a path. -/
def isPathChar
    (c : Char) :
    Bool :=
  c.isAlphanum || c == '_' || c == '-'

/-- The number between the brackets of a step, with blanks around it. -/
def placeOf?
    (cs : List Char) :
    Option Int :=
  let isSpace := fun c : Char => c == ' ' || c == '\t'
  let trimmed := ((cs.dropWhile isSpace).reverse.dropWhile isSpace).reverse
  match trimmed with
  | '+' :: _ => none
  | digits => (Decimal.int64? digits).map Int64.toInt

/-- The steps behind the first name of a path. -/
def steps? :
    (fuel : Nat) → List Char → Option SettingPath
  | 0, _ => none
  | _ + 1, [] => some []
  | fuel + 1, '.' :: rest =>
      match rest.takeWhile isPathChar with
      | [] => none
      | name => do
          let steps ← steps? fuel (rest.dropWhile isPathChar)
          return .name (String.ofList name) :: steps
  | fuel + 1, '[' :: rest =>
      match rest.dropWhile (· != ']') with
      | _ :: after => do
          let index ← placeOf? (rest.takeWhile (· != ']'))
          return .place index :: (← steps? fuel after)
      | [] => none
  | _ + 1, _ :: _ => none

/-- The path that a text spells; a text that spells none is a single name. -/
def ofText
    (text : String) :
    SettingPath :=
  let cs := text.toList
  match cs.takeWhile isPathChar, steps? (cs.length + 1) (cs.dropWhile isPathChar) with
  | [], _ => [.name text]
  | _, none => [.name text]
  | first, some steps => .name (String.ofList first) :: steps

end SettingPath

namespace Json

/-- The members of a section; any other value counts as a section without members. -/
def members : Json → List (String × Json)
  | .object members => members
  | _ => []

/-- The items of a list; any other value counts as an empty list. -/
def items : Json → List Json
  | .array items => items
  | _ => []

mutual

/-- The value that a later source gives in place of an old one; sections are joined. -/
def overlay
    (old : Json) :
    Json → Json
  | .object members => .object (overlayMembers old.members members)
  | .null => .null
  | .bool b => .bool b
  | .integer n => .integer n
  | .real x => .real x
  | .string s => .string s
  | .array items => .array items

/-- The old members with the values of a later source put over them. -/
def overlayMembers
    (old : List (String × Json)) :
    List (String × Json) → List (String × Json)
  | [] => old
  | (name, value) :: rest =>
      overlayMembers (insertMember name (overlay ((old.lookup name).getD .null) value) old) rest

end

/--
A list that has a given place, with missing items in it being null, and the place from
its start.
-/
def reach
    (index : Int)
    (items : List Json) :
    List Json × Nat :=
  if 0 ≤ index then
    (items ++ List.replicate (index.toNat + 1 - items.length) .null, index.toNat)
  else
    let fromStart := items.length + index
    if 0 ≤ fromStart then
      (items, fromStart.toNat)
    else
      (List.replicate (-fromStart).toNat .null ++ items, 0)

/-- Put a value at the place that a path names. -/
def put
    (value : Json) :
    SettingPath → Json → Json
  | [], old => overlay old value
  | .name name :: path, old =>
      let inner := (old.members.lookup name).getD .null
      .object (insertMember name (put value path inner) old.members)
  | .place index :: path, old =>
      let (items, position) := reach index old.items
      .array (items.set position (put value path (items.getD position .null)))

end Json

end FullTextQuery
