import FullTextQuery.Error
import FullTextQuery.Json.Reader

namespace FullTextQuery

/-!
# Responses of a hosted search service

A response is good if its status says so and its body is a JSON object whose
member `value` is an array of objects, each with a text or a number under the
name of the key field.  Anything else is refused, and the wording says what was found.
-/

/-- A response that arrived: its status code and the bytes of its body. -/
structure HttpResponse where
  status : Nat
  body : ByteArray

namespace HttpResponse

/-- The standard phrases of status codes. -/
def phrases : List (Nat × String) :=
  [(100, "Continue"), (101, "Switching Protocols"), (102, "Processing"), (200, "OK"),
    (201, "Created"), (202, "Accepted"), (203, "Non Authoritative Information"),
    (204, "No Content"), (205, "Reset Content"), (206, "Partial Content"), (207, "Multi-Status"),
    (208, "Already Reported"), (226, "IM Used"), (300, "Multiple Choices"),
    (301, "Moved Permanently"), (302, "Found"), (303, "See Other"), (304, "Not Modified"),
    (305, "Use Proxy"), (307, "Temporary Redirect"), (308, "Permanent Redirect"),
    (400, "Bad Request"), (401, "Unauthorized"), (402, "Payment Required"), (403, "Forbidden"),
    (404, "Not Found"), (405, "Method Not Allowed"), (406, "Not Acceptable"),
    (407, "Proxy Authentication Required"), (408, "Request Timeout"), (409, "Conflict"),
    (410, "Gone"), (411, "Length Required"), (412, "Precondition Failed"),
    (413, "Payload Too Large"), (414, "URI Too Long"), (415, "Unsupported Media Type"),
    (416, "Range Not Satisfiable"), (417, "Expectation Failed"), (418, "I'm a teapot"),
    (421, "Misdirected Request"), (422, "Unprocessable Entity"), (423, "Locked"),
    (424, "Failed Dependency"), (425, "Too Early"), (426, "Upgrade Required"),
    (428, "Precondition Required"), (429, "Too Many Requests"),
    (431, "Request Header Fields Too Large"), (451, "Unavailable For Legal Reasons"),
    (500, "Internal Server Error"), (501, "Not Implemented"), (502, "Bad Gateway"),
    (503, "Service Unavailable"), (504, "Gateway Timeout"), (505, "HTTP Version Not Supported"),
    (506, "Variant Also Negotiates"), (507, "Insufficient Storage"), (508, "Loop Detected"),
    (510, "Not Extended"), (511, "Network Authentication Required")]

/-- A status code and its phrase. -/
def statusText
    (status : Nat) :
    String :=
  Decimal.ofInt status ++ " " ++ (phrases.lookup status).getD "<unknown status code>"

/-- Whether a status says that the request succeeded. -/
def isSuccess
    (status : Nat) :
    Bool :=
  decide (200 ≤ status) && decide (status < 300)

/-- A character of a text that is shown in quotes. -/
def shownChar
    (c : Char) :
    List Char :=
  if c = '"' then ['\\', '"']
  else if c = '\\' then ['\\', '\\']
  else if c = '\x00' then ['\\', '0']
  else if c = '\n' then ['\\', 'n']
  else if c = '\r' then ['\\', 'r']
  else if c = '\t' then ['\\', 't']
  else if c.toNat < 0x20 ∨ (0x7F ≤ c.toNat ∧ c.toNat < 0xA0) then
    ['\\', 'u', '\x7b'] ++ Nat.toDigits 16 c.toNat ++ ['\x7d']
  else
    [c]

/-- A number that is no integer, with a point. -/
def shownReal
    (x : Binary64) :
    String :=
  let text := x.toPlain
  if text.toList.contains '.' then text else text ++ ".0"

/-- What a document is called where another one was expected. -/
def found : Json → String
  | .null => "null"
  | .bool true => "boolean \x60true\x60"
  | .bool false => "boolean \x60false\x60"
  | .integer n => "integer \x60" ++ Decimal.ofInt n ++ "\x60"
  | .real x => "floating point \x60" ++ shownReal x ++ "\x60"
  | .string s => "string \"" ++ String.ofList (s.toList.flatMap shownChar) ++ "\""
  | .array _ => "sequence"
  | .object _ => "map"

/-- The refusal of a document where another one was expected. -/
def unexpected
    (document : Json)
    (expected : String) :
    SearchError :=
  .invalidResponse ("invalid type: " ++ found document ++ ", expected " ++ expected)

/-- The members of a found document. -/
def members : Json → Except SearchError (List (String × Json))
  | .object list => .ok list
  | other => .error (unexpected other "a map")

/-- The found documents. -/
def documents : Json → Except SearchError (List (List (String × Json)))
  | .array items => items.mapM members
  | other => .error (unexpected other "a sequence")

/-- The documents of a whole answer; an array stands for the members in their order. -/
def answer : Json → Except SearchError (List (List (String × Json)))
  | .object list =>
      match list.lookup "value" with
      | some value => documents value
      | none => .error (.invalidResponse "missing field \x60value\x60")
  | .array [] =>
      .error (.invalidResponse "invalid length 0, expected struct SearchResponse with 1 element")
  | .array [value] => documents value
  | .array (value :: others) => do
      let _ ← documents value
      .error (.invalidResponse ("invalid length " ++ Decimal.ofInt (others.length + 1 : Nat)
        ++ ", expected fewer elements in array"))
  | other => .error (unexpected other "struct SearchResponse")

/-- The key of a document. -/
def key
    (field : String)
    (document : List (String × Json)) :
    Except SearchError String :=
  match document.lookup field with
  | some (.string text) => .ok text
  | some (.integer n) => .ok (Json.integer n).print
  | some (.real x) => .ok (Json.real x).print
  | some other => .error (.unsupportedKeyValue field other.print)
  | none => .error (.missingKeyField field)

/-- The keys that a response answers, in its order. -/
def keys
    (response : HttpResponse)
    (field : String) :
    Except SearchError (List String) := do
  if !isSuccess response.status then
    .error (.refusedStatus (statusText response.status))
  match (String.fromUTF8? response.body).bind Json.read? with
  | none => .error .undecodableBody
  | some document => (← answer document).mapM (key field)

end HttpResponse

end FullTextQuery
