import FullTextQuery.Url.Basic

namespace FullTextQuery.Url

/-!
# Reading URLs

A text is read from left to right: the scheme, the authority, the path, the
query and the fragment.  Under a special scheme a host is needed, slashes
before it are optional, and backslashes are slashes.
-/

namespace Parser

/-- Whether a character is cut off both ends of a URL. -/
def isOuterBlank
    (c : Char) :
    Bool :=
  decide (c.toNat ≤ 0x20)

/-- The characters of a URL that count. -/
def relevant
    (cs : List Char) :
    List Char :=
  let trimmed := ((cs.dropWhile isOuterBlank).reverse.dropWhile isOuterBlank).reverse
  trimmed.filter fun c => !isLineBreakOrTab c

/-- Whether a character can be in a scheme. -/
def isSchemeChar
    (c : Char) :
    Bool :=
  c.isAlphanum || c == '+' || c == '-' || c == '.'

/-- The scheme in lower case, and the text behind its colon. -/
def scheme?
    (cs : List Char) :
    Option (String × List Char) :=
  match cs with
  | [] => none
  | first :: _ =>
      match cs.takeWhile isSchemeChar, cs.dropWhile isSchemeChar with
      | name, ':' :: rest =>
          if first.isAlpha then some (String.ofList (name.map Char.toLower), rest) else none
      | _, _ => none

/-- Whether a character is a slash. -/
def isSlash
    (kind : SchemeKind)
    (c : Char) :
    Bool :=
  c == '/' || (kind.isSpecial && c == '\\')

/-- Whether a character ends the authority. -/
def endsAuthority
    (kind : SchemeKind)
    (c : Char) :
    Bool :=
  isSlash kind c || c == '?' || c == '#'

/-- What stands before and behind the last `@`, if there is one. -/
def splitAtSign
    (cs : List Char) :
    Option (List Char × List Char) :=
  let reversed := cs.reverse
  match reversed.dropWhile (· != '@') with
  | [] => none
  | _ :: before => some (before.reverse, (reversed.takeWhile (· != '@')).reverse)

/-- The characters of a host, up to a colon outside brackets. -/
def hostChars : (inBrackets : Bool) → List Char → List Char
  | _, [] => []
  | inBrackets, c :: rest =>
      if c = ':' ∧ !inBrackets then []
      else if c = '[' then c :: hostChars true rest
      else if c = ']' then c :: hostChars false rest
      else c :: hostChars inBrackets rest

/-- A number behind a colon, and what follows it. -/
def portNumber
    (scheme : String)
    (cs : List Char) :
    Except ParseError (Option Nat × List Char) :=
  let digits := cs.takeWhile Decimal.isDigit
  let rest := cs.dropWhile Decimal.isDigit
  let number := Decimal.ofDigits digits
  if 65535 < number then
    .error .invalidPort
  else if rest.head?.any (· != '\\') then
    .error .invalidPort
  else if digits.isEmpty ∨ defaultPorts.lookup scheme = some number then
    .ok (none, rest)
  else
    .ok (some number, rest)

/-- The user name and the password in front of a host. -/
def userInfo
    (cs : List Char) :
    List Char × List Char :=
  let name := cs.takeWhile (· != ':')
  let password := (cs.dropWhile (· != ':')).drop 1
  (percentEncode EncodeSet.userInfo name, percentEncode EncodeSet.userInfo password)

/-- The host of an authority. -/
def host
    (kind : SchemeKind)
    (cs : List Char) :
    Except ParseError Host :=
  match kind with
  | .other => Host.ofOpaque cs
  | .special | .file => if cs.isEmpty then .error .emptyHost else Host.ofDomain cs

/-- The authority that some characters are, and what is left of them. -/
def authority
    (scheme : String)
    (kind : SchemeKind)
    (cs : List Char) :
    Except ParseError (Authority × List Char) := do
  let (info, place) := (splitAtSign cs).getD ([], cs)
  let (username, password) := userInfo info
  let chars := hostChars false place
  let behind := place.drop chars.length
  let host ← Parser.host kind chars
  let bare : Authority := { username, password, host }
  match behind with
  | ':' :: rest =>
      if !bare.hasHost then
        .error .emptyHost
      let (portNumber?, rest) ← portNumber scheme rest
      return ({ bare with portNumber? }, rest)
  | _ =>
      if bare.hasUserInfo && !bare.hasHost then
        .error .emptyHost
      return (bare, behind)

/--
The segments of a path and the text behind it; `segment` is what has been read of the
current one.
-/
def segments
    (kind : SchemeKind)
    (done : List Segment)
    (segment : Segment) :
    List Char → List Segment × List Char
  | [] => (addSegment kind done segment false, [])
  | c :: rest =>
      if c = '?' ∨ c = '#' then
        (addSegment kind done segment false, c :: rest)
      else if isSlash kind c then
        segments kind (addSegment kind done segment true) [] rest
      else
        segments kind done (segment ++ percentChar EncodeSet.path c) rest

/-- The text behind a slash, if there is one in front. -/
def dropSlash
    (kind : SchemeKind) :
    List Char → List Char
  | [] => []
  | c :: rest => if isSlash kind c then rest else c :: rest

/-- The path behind an authority and the text behind the path. -/
def pathBehindAuthority
    (kind : SchemeKind)
    (cs : List Char) :
    Path × List Char :=
  let isEmpty := match cs with
    | [] => true
    | c :: _ => c == '?' || c == '#'
  if isEmpty && !kind.isSpecial then
    (.segments [], cs)
  else
    let (list, rest) := segments kind [] [] (dropSlash kind cs)
    (.segments list, rest)

/-- The segments without empty ones at the front. -/
def dropEmptyFirst
    (list : List Segment) :
    List Segment :=
  match list.dropWhile List.isEmpty with
  | [] => [[]]
  | kept => kept

/-- The URL with the query and the fragment that follow its path. -/
def withQueryAndFragment
    (url : Url)
    (cs : List Char) :
    Url :=
  let beforeFragment := cs.takeWhile (· != '#')
  let query? := match beforeFragment with
    | '?' :: query => some (percentEncode url.kind.querySet query)
    | _ => none
  let fragment? := match cs.dropWhile (· != '#') with
    | _ :: fragment => some (percentEncode EncodeSet.fragment fragment)
    | [] => none
  { url with query?, fragment? }

/-- The URL with an authority, which begins the text. -/
def withAuthority
    (scheme : String)
    (kind : SchemeKind)
    (cs : List Char) :
    Except ParseError Url := do
  let isInside := fun c => !endsAuthority kind c
  let (authority, left) ← Parser.authority scheme kind (cs.takeWhile isInside)
  let (path, rest) := pathBehindAuthority kind (left ++ cs.dropWhile isInside)
  return withQueryAndFragment { scheme, authority? := some authority, path } rest

/-- The host of a file URL and the text behind it; a drive letter is no host. -/
def fileHost
    (cs : List Char) :
    List Char × List Char :=
  let isInside := fun c => !endsAuthority .file c
  match cs with
  | a :: b :: rest =>
      if !isSlash .file a || !isSlash .file b then ([], cs)
      else if isDriveLetter (rest.takeWhile isInside) then ([], rest)
      else (rest.takeWhile isInside, rest.dropWhile isInside)
  | _ => ([], cs)

/-- The URL of a file; a local host is the same as none. -/
def file
    (cs : List Char) :
    Except ParseError Url := do
  let (chars, behind) := fileHost cs
  let host ← if chars.isEmpty then .ok (Host.name []) else Host.ofDomain chars
  let host := if host = .name "localhost".toList then .name [] else host
  let (list, rest) := segments .file [] [] (dropSlash .file behind)
  let url : Url :=
    { scheme := "file", authority? := some { host }, path := .segments (dropEmptyFirst list) }
  return withQueryAndFragment url rest

/-- The URL of a scheme that is not special and has no authority. -/
def withoutAuthority
    (scheme : String)
    (cs : List Char) :
    Url :=
  match cs with
  | '/' :: behind =>
      let (list, rest) := segments .other [] [] behind
      withQueryAndFragment { scheme, authority? := none, path := .segments list } rest
  | _ =>
      let isInside := fun c => c != '?' && c != '#'
      let path := Path.opaqueText (percentEncode EncodeSet.control (cs.takeWhile isInside))
      withQueryAndFragment { scheme, authority? := none, path } (cs.dropWhile isInside)

end Parser

/-- The absolute URL that a text is. -/
def parse
    (text : String) :
    Except ParseError Url :=
  match Parser.scheme? (Parser.relevant text.toList) with
  | none => .error .relativeWithoutBase
  | some (scheme, rest) =>
      let kind := SchemeKind.ofScheme scheme
      match kind, rest with
      | .special, _ => Parser.withAuthority scheme kind (rest.dropWhile (Parser.isSlash kind))
      | .file, _ => Parser.file rest
      | .other, '/' :: '/' :: behind => Parser.withAuthority scheme kind behind
      | .other, _ => .ok (Parser.withoutAuthority scheme rest)

end FullTextQuery.Url
