import PipelineConfig.Dialog
import PipelineConfig.Http.Status
import PipelineConfig.Http.Url

/-!
# Requests and replies

A conversation with a server is a `Dialog` whose questions are requests. The reply is a response,
or nothing when the connection is closed without one. A request that cannot be put together is
never sent; `Failure` says why there is no answer to work with.
-/

namespace PipelineConfig.Http

/-- What a request asks a server to do. -/
inductive Method
  | get | post
  deriving DecidableEq, Repr

/-- The word for a method. -/
def Method.name : Method → String
  | .get => "GET"
  | .post => "POST"

/-- A request. -/
structure Request where
  method : Method
  url : Url
  /-- Names in lower case, with their values. -/
  headers : List (String × String)
  body : String
  deriving DecidableEq, Repr

/-- A response. -/
structure Response where
  status : Status
  body : String
  deriving DecidableEq, Repr

/-- The content of a response; some have none whatever follows them. -/
def Response.content (r : Response) : String :=
  if Status.hasContent r.status then r.body else ""

/-- A conversation: each request has a response, or the connection is closed without one. -/
abbrev Conversation (α : Type) := Dialog Request (fun _ => Option Response) α

/-- Why there is no answer to a request. -/
inductive Failure
  /-- There is no such request; the address is known when it can be read. -/
  | notBuilt (url? : Option String)
  /-- There was no response. -/
  | notSent (url : String)
  /-- The response is not what it should be. -/
  | notDecoded
  deriving DecidableEq, Repr

/-- The message of a failure. -/
def Failure.message : Failure → String
  | .notBuilt none => "builder error"
  | .notBuilt (some url) => "builder error for url (" ++ url ++ ")"
  | .notSent url => "error sending request for url (" ++ url ++ ")"
  | .notDecoded => "error decoding response body"

/-- Whether a text may be the value of a header. -/
def isHeaderValue (s : String) : Bool :=
  s.toList.all (fun c => c = '\t' || (0x20 ≤ c.toNat && c.toNat ≠ 0x7F))

/-- Put a request together. -/
def Request.make (method : Method) (url : String) (headers : List (String × String))
    (body : String) : Except Failure Request :=
  match Url.read? url with
  | none => .error (.notBuilt none)
  | some u =>
    if u.host?.isNone then .error (.notBuilt (some u.text))
    else if !headers.all (fun h => isHeaderValue h.2) then .error (.notBuilt none)
    else if !u.isWeb then .error (.notBuilt (some u.text))
    else .ok ⟨method, u, headers, body⟩

/-- Send a request. -/
def send (request : Request) : Conversation (Except Failure Response) :=
  .ask request (fun response? => .outcome (match response? with
    | some response => .ok response
    | none => .error (.notSent request.url.text)))

end PipelineConfig.Http
