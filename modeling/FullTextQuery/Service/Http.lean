import FullTextQuery.Service.Basic
import FullTextQuery.Service.Config
import FullTextQuery.Service.Response

namespace FullTextQuery

/-!
# Hosted search

A search is one request to a hosted service, and the keys are read from its
response.  How requests travel is a parameter: a transport brings a request to its
address and the response back, or does not.
-/

/--
A request to a service.  It always sends a JSON document, so neither the method nor
the type of the body is kept.
-/
structure HttpRequest where
  url : Url
  apiKey? : Option String
  body : String
  deriving Repr, DecidableEq

/-- Brings requests to their addresses; no response means that the connection failed. -/
abbrev Transport (σ : Type) : Type :=
  HttpRequest → σ → Option HttpResponse × σ

namespace ServiceConfig

/-- Whether a character can be in a header. -/
def isHeaderChar
    (c : Char) :
    Bool :=
  c == '\t' || (decide (0x20 ≤ c.toNat) && c != '\x7f')

/-- The document that a request carries. -/
def requestBody
    (config : ServiceConfig)
    (text : String) :
    String :=
  (Json.ofMembers
    [("search", .string text), ("select", .string config.keyField),
      ("top", .integer config.top.toNat)]).print

/--
The request for a search.  It needs a host, a key that can be in a header, and a
scheme that requests can be sent with, and is refused in this order.
-/
def request
    (config : ServiceConfig)
    (index text : String) :
    Except Error HttpRequest := do
  let url ← (config.indexUrl index).mapError .config
  let refuse : RequestError → Except Error HttpRequest :=
    fun reason => .error (.search (.requestFailed reason))
  if !url.hasHost then
    refuse (.cannotBuildFor url.text)
  else
    let full := url.withoutUserInfo.addPair "api-version" config.apiVersion
    if config.apiKey?.any fun key => !key.toList.all isHeaderChar then
      refuse .cannotBuild
    else if url.scheme = "http" ∨ url.scheme = "https" then
      return ⟨full, config.apiKey?, config.requestBody text⟩
    else
      refuse (.cannotBuildFor full.text)

/-- Send a request and read the keys from its response. -/
def send
    (config : ServiceConfig)
    (transport : Transport σ)
    (request : HttpRequest)
    (world : σ) :
    Except Error (List String) × σ :=
  match transport request world with
  | (some response, after) => ((response.keys config.keyField).mapError .search, after)
  | (none, after) => (.error (.search (.requestFailed (.cannotSend request.url.text))), after)

/-- The search service at the endpoint. -/
def service
    (config : ServiceConfig)
    (transport : Transport σ) :
    SearchService σ where
  search index text world :=
    match config.request index text with
    | .error e => (.error e, world)
    | .ok request => config.send transport request world

end ServiceConfig

end FullTextQuery
