import FullTextQuery.Url.Host

namespace FullTextQuery

namespace Url

/-!
# URLs

An absolute URL in its parts, every part in the form in which it is written.  A
path is either a list of segments, to which segments can be added, or opaque.
-/

/-- What a scheme says about the parts of its URLs. -/
inductive SchemeKind where
  | special
  | file
  | other
  deriving Repr, DecidableEq

/-- The special schemes and the port numbers that they mean if none is given. -/
def defaultPorts : List (String × Nat) :=
  [("http", 80), ("https", 443), ("ws", 80), ("wss", 443), ("ftp", 21)]

namespace SchemeKind

/-- The kind of a scheme. -/
def ofScheme
    (scheme : String) :
    SchemeKind :=
  if scheme = "file" then .file
  else if (defaultPorts.lookup scheme).isSome then .special
  else .other

/-- Whether a backslash is a slash under the scheme. -/
def isSpecial : SchemeKind → Bool
  | .special | .file => true
  | .other => false

/-- What a query encodes under the scheme. -/
def querySet : SchemeKind → EncodeSet
  | .special | .file => EncodeSet.specialQuery
  | .other => EncodeSet.query

/-- What an added segment encodes under the scheme. -/
def segmentSet : SchemeKind → EncodeSet
  | .special | .file => EncodeSet.specialSegment
  | .other => EncodeSet.segment

end SchemeKind

/-- Who is asked, and where. -/
structure Authority where
  username : List Char := []
  password : List Char := []
  host : Host
  portNumber? : Option Nat := none
  deriving Repr, DecidableEq

/-- A path segment in its written form. -/
abbrev Segment : Type :=
  List Char

/-- A path. -/
inductive Path where
  | segments (list : List Segment)
  | opaqueText (text : List Char)
  deriving Repr, DecidableEq

end Url

/-- An absolute URL. -/
structure Url where
  scheme : String
  authority? : Option Url.Authority
  path : Url.Path
  query? : Option (List Char) := none
  fragment? : Option (List Char) := none
  deriving Repr, DecidableEq

namespace Url

/-- The kind of the scheme. -/
def kind
    (url : Url) :
    SchemeKind :=
  .ofScheme url.scheme

namespace Authority

/-- Whether there is a user name or a password. -/
def hasUserInfo
    (authority : Authority) :
    Bool :=
  !authority.username.isEmpty || !authority.password.isEmpty

/-- The user name and the password before the host. -/
def userInfoText
    (authority : Authority) :
    List Char :=
  let password := if authority.password.isEmpty then [] else ':' :: authority.password
  if authority.hasUserInfo then authority.username ++ password ++ ['@'] else []

/-- The text of an authority. -/
def text
    (authority : Authority) :
    List Char :=
  let ending := match authority.portNumber? with
    | some number => ':' :: Decimal.digits number
    | none => []
  authority.userInfoText ++ authority.host.text ++ ending

/-- Whether there is a host. -/
def hasHost
    (authority : Authority) :
    Bool :=
  authority.host ≠ .name []

end Authority

namespace Path

/-- The text of a path. -/
def text : Path → List Char
  | .segments list => list.flatMap fun segment => '/' :: segment
  | .opaqueText text => text

/-- Whether a path without an authority before it would be read as an authority. -/
def looksLikeAuthority : Path → Bool
  | .segments ([] :: _ :: _) => true
  | _ => false

end Path

/-- A part behind its sign, if there is one. -/
def optionalText
    (sign : Char) :
    Option (List Char) → List Char
  | some text => sign :: text
  | none => []

/-- The text between the scheme and the path. -/
def authorityText
    (url : Url) :
    List Char :=
  match url.authority? with
  | some authority => '/' :: '/' :: authority.text
  | none => if url.path.looksLikeAuthority then ['/', '.'] else []

/-- The text of a URL. -/
def text
    (url : Url) :
    String :=
  String.ofList (url.scheme.toList ++ ':' :: url.authorityText ++ url.path.text
    ++ optionalText '?' url.query? ++ optionalText '#' url.fragment?)

/-- The path and the query, as a request names them. -/
def target
    (url : Url) :
    String :=
  String.ofList (url.path.text ++ optionalText '?' url.query?)

/-- Whether there is a host. -/
def hasHost
    (url : Url) :
    Bool :=
  match url.authority? with
  | some authority => authority.hasHost
  | none => false

/-- The same URL without a user name and a password. -/
def withoutUserInfo
    (url : Url) :
    Url :=
  { url with
    authority? := url.authority?.map fun authority =>
      { authority with username := [], password := [] } }

/-! ## Paths -/

/-- The spellings of a full stop in a segment. -/
def fullStops : List (List Char) :=
  [['.'], ['%', '2', 'e'], ['%', '2', 'E']]

/-- Whether a segment means the place where it stands. -/
def isHere
    (segment : Segment) :
    Bool :=
  fullStops.contains segment

/-- Whether a segment means the place above. -/
def isAbove
    (segment : Segment) :
    Bool :=
  fullStops.any fun first => fullStops.any fun second => segment == first ++ second

/-- Whether a segment is a drive letter: a letter with a colon or a bar behind it. -/
def isDriveLetter : Segment → Bool
  | [letter, sign] => letter.isAlpha && (sign == ':' || sign == '|')
  | _ => false

/-- The segments without the last one; a drive letter at the front of a file path stays. -/
def dropLastSegment
    (kind : SchemeKind) :
    List Segment → List Segment
  | [only] => if kind = .file ∧ isDriveLetter only then [only] else []
  | segments => segments.dropLast

/-- The written form of a segment; a drive letter at the front of a file path gets a colon. -/
def writtenSegment
    (kind : SchemeKind)
    (segments : List Segment)
    (segment : Segment) :
    Segment :=
  if kind = .file ∧ segments.isEmpty ∧ isDriveLetter segment then segment.take 1 ++ [':']
  else segment

/--
The segments after one more, which is followed by a slash or not.  A segment
for the place above takes the last one away; where such a segment ends the
path, an empty one follows.
-/
def addSegment
    (kind : SchemeKind)
    (segments : List Segment)
    (segment : Segment)
    (slash : Bool) :
    List Segment :=
  let ending : List Segment := if slash then [] else [[]]
  if isAbove segment then dropLastSegment kind segments ++ ending
  else if isHere segment then segments ++ ending
  else segments ++ [writtenSegment kind segments segment]

/-- The segments without an empty one at the end, unless it is the only one. -/
def dropEmptyLast
    (segments : List Segment) :
    List Segment :=
  if 1 < segments.length ∧ segments.getLast? = some [] then segments.dropLast else segments

/-- Whether a character is dropped wherever it stands in a URL. -/
def isLineBreakOrTab
    (c : Char) :
    Bool :=
  c == '\t' || c == '\n' || c == '\r'

/--
The segments with a text added as one segment, whatever is in it.  The texts `.`
and `..` are not added.
-/
def pushText
    (kind : SchemeKind)
    (segments : List Segment)
    (text : List Char) :
    List Segment :=
  if text = ['.'] ∨ text = ['.', '.'] then
    segments
  else
    let before := if segments = [[]] then [] else segments
    let written := percentEncode kind.segmentSet (text.filter fun c => !isLineBreakOrTab c)
    addSegment kind before written false

/-- The URL with texts added to its path as one segment each, if it has segments. -/
def pushTexts?
    (url : Url)
    (texts : List String) :
    Option Url :=
  match url.path with
  | .opaqueText _ => none
  | .segments list =>
      let extended := (texts.map String.toList).foldl (pushText url.kind) (dropEmptyLast list)
      some { url with path := .segments extended }

/-! ## Queries -/

/-- The URL with a name and a value added to its query. -/
def addPair
    (url : Url)
    (name value : String) :
    Url :=
  let pair := formEncode name.toList ++ '=' :: formEncode value.toList
  let query := match url.query? with
    | some earlier => if earlier.isEmpty then pair else earlier ++ '&' :: pair
    | none => pair
  { url with query? := some query }

end Url

end FullTextQuery
