import PipelineConfig.Json.Printer
import PipelineConfig.Json.Reader
import PipelineConfig.Redaction
import PipelineConfig.Secret.Error
import PipelineConfig.Text.Quoted
import PipelineConfig.Value.Basic

/-!
# The trust service

The trust service issues tokens for systems to whoever has a token of its own. The settings for
collaborators say where it is; all systems are asked for in one request, and the response has a
token for each system that the service knows.
-/

namespace PipelineConfig

/-- A trust service, and the token to ask it with. -/
structure TrustService where
  serverUrl : String
  endPoint : String
  /-- The parameter of the query that repeats the systems, if there is to be one. -/
  queryName : String
  token : String
  deriving DecidableEq, Repr

namespace TrustService

/-- The service that the settings for collaborators name. -/
def ofHooks? (hooks : Mapping) (token : String) : Option TrustService := do
  let settings ← (Assoc.get? hooks "trustEngine").bind Value.asMapping?
  let field (name : String) : String := (Mapping.string? settings name).getD ""
  let serverUrl := field "serverURL"
  if serverUrl.isEmpty then none
  else some ⟨serverUrl, field "tokenEndPoint", field "tokenQueryParamName", token⟩

/-- How a service is shown: without the token. -/
def shown (t : TrustService) : String :=
  "TrustConfig \x7b server_url: " ++ Text.quoted t.serverUrl
    ++ ", token_end_point: " ++ Text.quoted t.endPoint
    ++ ", token_query_param_name: " ++ Text.quoted t.queryName
    ++ ", token: " ++ Text.quoted (String.ofList Redactor.mask) ++ " \x7d"

/-- The address to ask for the tokens of systems. -/
def url (t : TrustService) (systems : List String) : String :=
  let address := Text.stripEnd '/' t.serverUrl ++ "/" ++ Text.stripStart '/' t.endPoint
  if t.queryName.isEmpty then address
  else
    address ++ (if address.toList.contains '?' then "&" else "?")
      ++ t.queryName ++ "=" ++ ",".intercalate systems

/-- What is sent for systems. -/
def requestBody (systems : List String) : Json :=
  .array (systems.map (fun system =>
    .object [("system", .string system), ("scope", .string "pipeline")]))

/-- The headers of every request. -/
def headers (t : TrustService) : List (String × String) :=
  [("content-type", "application/json"), ("authorization", "Bearer " ++ t.token)]

/-- The tokens in a response, sorted by system. -/
def tokens? (content : String) : Option (List (String × String)) := do
  let members ← (Json.read? content).bind Json.asObject?
  members.mapM (fun (system, j) => j.asString?.map (fun token => (system, token)))

/-- Ask for the tokens of systems. -/
def issue (t : TrustService) (systems : List String) :
    Http.Conversation (Except SecretError (List (String × String))) := do
  let url := t.url systems
  match Http.Request.make .post url t.headers (requestBody systems).compactText with
  | .error failure => return .error (.issuer url (.noResponse failure))
  | .ok request =>
    match ← Http.send request with
    | .error failure => return .error (.issuer url (.noResponse failure))
    | .ok response =>
      if !Http.Status.isSuccess response.status then
        return .error (.issuer url (.refused response.status))
      else match tokens? response.content with
        | none => return .error (.issuer url .undecodable)
        | some tokens => return .ok tokens

end TrustService

end PipelineConfig
