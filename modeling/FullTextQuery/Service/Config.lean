import FullTextQuery.Error
import FullTextQuery.Text.Blank
import FullTextQuery.Url.Parser

namespace FullTextQuery

/-!
# Settings of a hosted search service
-/

/-- How a hosted search service is reached, and what is asked of it. -/
structure ServiceConfig where
  endpoint : String
  apiKey? : Option String := none
  apiVersion : String := "2020-06-30"
  keyField : String := "id"
  top : UInt32 := 1000
  timeoutSeconds : UInt64 := 30
  deriving Repr, DecidableEq

namespace ServiceConfig

/-- The URL of the service. -/
def endpointUrl
    (config : ServiceConfig) :
    Except ConfigError Url :=
  (Url.parse (Text.trim config.endpoint)).mapError .invalidEndpoint

/-- Refuse settings without an endpoint, without time for an answer, or whose endpoint is no URL. -/
def check
    (config : ServiceConfig) :
    Except ConfigError Unit := do
  if (Text.trim config.endpoint).isEmpty then
    .error .emptyEndpoint
  if config.timeoutSeconds = 0 then
    .error .zeroTimeout
  let _ ← config.endpointUrl
  return ()

/--
The URL at which an index is searched: four segments below the endpoint, of
which one is the name of the index, whatever is in it.
-/
def indexUrl
    (config : ServiceConfig)
    (index : String) :
    Except ConfigError Url := do
  let url ← config.endpointUrl
  match url.pushTexts? ["indexes", index, "docs", "search"] with
  | some extended => return extended
  | none => .error (.endpointWithoutPath config.endpoint)

end ServiceConfig

end FullTextQuery
