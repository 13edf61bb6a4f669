import PipelineConfig.Json.Printer
import PipelineConfig.Json.Reader
import PipelineConfig.Secret.Error
import PipelineConfig.Secret.Path
import PipelineConfig.Width

/-!
# A key-value store on a server

The store is reached by requests that carry a token. Several engines may keep the secrets, in one
of two versions, and each engine is mounted at a path of its own. So a secret is read in two
requests: one for the engine that serves the path, one for the secret. The second version of
engines keeps secrets under `data` below its mount, and wraps them in one more record.
-/

namespace PipelineConfig

/-- A server with a key-value store. -/
structure KvServer where
  address : String
  token : String
  vaultNamespace? : Option String
  deriving DecidableEq, Repr

namespace KvServer

/-- The server that the configuration names. -/
def ofConfig? (config : Mapping) (token : String) : Option KvServer :=
  match config.string? "vaultServerUrl" with
  | none => none
  | some address =>
    if address.isEmpty then none
    else
      let vaultNamespace? := match config.string? "vaultNamespace" with
        | some n => if n.isEmpty then none else some n
        | none => none
      some ⟨Text.stripEnd '/' address, token, vaultNamespace?⟩

/-! ### Reading records -/

/-- The fields of a record: those of an object by name, those of an array by position. An object
may have other members, but none of the fields twice; an array has no more items than fields. -/
def recordFields? (names : List String) : Json → Option (List (String × Json))
  | .object members =>
    let known := members.filter (fun m => names.contains m.1)
    if (known.map Prod.fst).Nodup then some known else none
  | .array items => if names.length < items.length then none else some (names.zip items)
  | _ => none

/-- Something that is null when it is not there. -/
def present? : Option Json → Option Json
  | some .null => none
  | j? => j?

/-- The `data` of a response, which must be a record. -/
def responseData? (content : String) : Option (Option Json) := do
  let fields ← (Json.readOutline? content).bind (recordFields? ["data"])
  some (present? (Assoc.get? fields "data"))

/-- What is known of the engine that serves a path: its mount and its version, as a text. -/
structure Mount where
  path : String
  version? : Option String

/-- The version among the options of an engine. -/
def optionsVersion? (options : Json) : Option (Option String) := do
  let fields ← recordFields? ["version"] options
  match present? (Assoc.get? fields "version") with
  | none => some none
  | some (.string v) => some (some v)
  | some _ => none

/-- What a record says of an engine. -/
def Mount.ofJson? (j : Json) : Option Mount := do
  let fields ← recordFields? ["path", "options"] j
  let path ← match Assoc.get? fields "path" with
    | none => some ""
    | some (.string path) => some path
    | some _ => none
  match present? (Assoc.get? fields "options") with
  | none => some ⟨path, none⟩
  | some options => do
    let version? ← optionsVersion? options
    some ⟨path, version?⟩

/-- The number of 32 bits that a text writes in decimal digits, with or without a plus sign. -/
def version? (s : String) : Option Nat :=
  let digits := match s.toList with
    | '+' :: rest => rest
    | cs => cs
  if digits = [] then none
  else (Http.Url.decimal? digits).bind (fun n => if Width.holds 32 n then some n else none)

/-! ### Requests -/

/-- The headers of every request. -/
def headers (s : KvServer) : List (String × String) :=
  ("x-vault-token", s.token) :: (s.vaultNamespace?.map (fun n => ("x-vault-namespace", n))).toList

/-- The address of a path. -/
def url (s : KvServer) (path : String) : String :=
  s.address ++ "/v1/" ++ SecretPath.normalize path

/-- The `data` that the server has at a path; none when there is nothing. -/
def readData (s : KvServer) (path : String) :
    Http.Conversation (Except SecretError (Option Json)) := do
  match Http.Request.make .get (s.url path) s.headers "" with
  | .error failure => return .error (.store path (.noResponse failure))
  | .ok request =>
    match ← Http.send request with
    | .error failure => return .error (.store path (.noResponse failure))
    | .ok response =>
      if response.status = 404 then return .ok none
      else if !Http.Status.isSuccess response.status then
        return .error (.store path (.refused response.status response.content))
      else match responseData? response.content with
        | none => return .error (.store path .undecodable)
        | some data? => return .ok data?

/-- The mount and the version of the engine that serves a path. -/
def engine (s : KvServer) (path : String) :
    Http.Conversation (Except SecretError (String × Nat)) := do
  match ← s.readData ("sys/internal/ui/mounts/" ++ path) with
  | .error e => return .error e
  | .ok none => return .error (.store path .noMount)
  | .ok (some data) =>
    match Mount.ofJson? data with
    | none => return .error (.store path .badMount)
    | some mount =>
      match mount.version? with
      | none | some "" => return .ok (mount.path, 1)
      | some v =>
        match version? v with
        | some n => return .ok (mount.path, n)
        | none => return .error (.store path (.badVersion v))

/-! ### Secrets -/

/-- The path at which an engine of the second version keeps a secret. -/
def versionedPath (path mount : String) : String :=
  let mount := SecretPath.normalize mount
  let rest := if Text.startsWith mount path then
      String.ofList (path.toList.drop mount.toList.length)
    else path
  SecretPath.normalize (mount ++ "/data/" ++ rest)

/-- The text of a field: a text as it is, anything else as JSON. -/
def fieldText : Json → String
  | .string s => s
  | j => j.compactText

/-- The fields of a secret; null stands for a secret that is no longer there. -/
def secretOf (path : String) : Json → Except SecretError (Option SecretData)
  | .null => .ok none
  | .object members => .ok (some (Assoc.ofList (members.map (fun m => (m.1, fieldText m.2)))))
  | _ => .error (.store path .dataNotObject)

/-- What an engine of the second version wraps a secret in. -/
def unwrap (path : String) : Json → Except SecretError Json
  | .object members =>
    match Assoc.get? members "data" with
    | some inner => .ok inner
    | none => .error (.store path .noData)
  | _ => .error (.store path .dataNotObject)

/-- The secret at a path. -/
def secret (s : KvServer) (path : String) :
    Http.Conversation (Except SecretError (Option SecretData)) := do
  let path := SecretPath.normalize path
  match ← s.engine path with
  | .error e => return .error e
  | .ok (mount, version) =>
    if version = 1 then
      match ← s.readData path with
      | .error e => return .error e
      | .ok none => return .ok none
      | .ok (some data) => return secretOf path data
    else if version = 2 then
      match ← s.readData (versionedPath path mount) with
      | .error e => return .error e
      | .ok none => return .ok none
      | .ok (some data) => return (unwrap path data).bind (secretOf path)
    else return .error (.store path (.unsupportedVersion version))

end KvServer

end PipelineConfig
