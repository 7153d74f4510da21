import FullTextQuery.Json.Basic

namespace FullTextQuery.Toml

/-!
# Tables of TOML

A table is written in parts, and which parts may come together depends on how each
table came into being.  `Node` keeps that beside the entries while a text is read:

* a table with a header of its own is complete, and only headers below it add to it;
* a table that only a header below it implies may still get its own header;
* a table that a dotted name implies gets entries by dotted names only;
* a series grows by one table with every header in double brackets, and headers
  below it mean its last table.
-/

/-- How a table came into being. -/
inductive TableOrigin where
  | declared
  | aboveHeader
  | dottedName
  deriving Repr, DecidableEq

/-- An entry of a table that is being read. -/
inductive Node where
  | value (document : Json)
  | table (origin : TableOrigin) (members : List (String × Node))
  | series (last : List (String × Node)) (earlier : List Json)
  deriving Inhabited

/-- The entries of a table in the order of the text. -/
abbrev Members : Type :=
  List (String × Node)

namespace Node

mutual

/-- What an entry says in the end. -/
def document : Node → Json
  | .value document => document
  | .table _ members => .ofMembers (documents members)
  | .series last earlier => .array (earlier ++ [.ofMembers (documents last)])

/-- What the entries of a table say. -/
def documents : List (String × Node) → List (String × Json)
  | [] => []
  | (name, node) :: rest => (name, node.document) :: documents rest

end

end Node

namespace Members

/-- Change the entry under a name, or make one at the end; `change` may refuse. -/
def alter
    (name : String)
    (change : Option Node → Option Node) :
    Members → Option Members
  | [] => (change none).map fun made => [(name, made)]
  | (other, node) :: rest =>
      if name = other then (change (some node)).map fun changed => (other, changed) :: rest
      else (alter name change rest).map ((other, node) :: ·)

/--
Change the table at the end of a path, of which `change` gets the origin and the
entries.  Tables that are missing on the way get the origin `way`; a dotted name
leads through the last table of a series, but not through a table that has a header.
-/
def within
    (way : TableOrigin)
    (change : TableOrigin → Members → Option Members) :
    List String → TableOrigin → Members → Option Members
  | [], origin, members => change origin members
  | name :: path, _, members =>
      members.alter name fun found? =>
        match found?.getD (.table way []) with
        | .value _ => none
        | .table origin inner =>
            if way = .dottedName ∧ origin = .declared then none
            else (within way change path origin inner).map (.table origin)
        | .series last earlier =>
            (within way change path .declared last).map fun last => .series last earlier

/-- Put a value under a new name. -/
def add
    (name : String)
    (document : Json)
    (members : Members) :
    Option Members :=
  members.alter name fun
    | none => some (.value document)
    | some _ => none

/-- Put a value under a dotted name; the last table of it must be one of dotted names. -/
def assign
    (path : List String)
    (name : String)
    (document : Json)
    (members : Members) :
    Option Members :=
  if path.isEmpty then
    members.add name document
  else
    members.within .dottedName
      (fun origin inner => if origin = .dottedName then inner.add name document else none)
      path .declared

/-- Enter the header of a table. -/
def declare
    (path : List String)
    (name : String)
    (members : Members) :
    Option Members :=
  members.within .aboveHeader
    (fun _ inner => inner.alter name fun
      | none => some (.table .declared [])
      | some (.table .aboveHeader entries) => some (.table .declared entries)
      | some _ => none)
    path .declared

/-- Enter the header of a further table of a series. -/
def declareNext
    (path : List String)
    (name : String)
    (members : Members) :
    Option Members :=
  members.within .aboveHeader
    (fun _ inner => inner.alter name fun
      | none => some (.series [] [])
      | some (.series last earlier) =>
          some (.series [] (earlier ++ [.ofMembers (Node.documents last)]))
      | some _ => none)
    path .declared

/-- Put a value under a dotted name in the table with a header. -/
def assignBelow
    (header path : List String)
    (name : String)
    (document : Json)
    (members : Members) :
    Option Members :=
  members.within .aboveHeader (fun _ inner => inner.assign path name document) header .declared

end Members

end FullTextQuery.Toml
