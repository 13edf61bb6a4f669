import PipelineConfig.Metadata.Basic
import PipelineConfig.Template

/-!
# Where secrets are

A key-value store keeps secrets under paths, and each secret is a record of texts. A resource
reference says under which paths the secret of a parameter may be; unless it lists them, they are
the places where secrets of a pipeline are kept by convention. A path with a reference to something
that is not set is left out.
-/

namespace PipelineConfig

/-- The fields of a secret, sorted by name. -/
abbrev SecretData := List (String × String)

namespace SecretPath

/-- A path without blanks around it and without empty segments. -/
def normalize (path : String) : String :=
  "/".intercalate ((Text.splitOn '/' (Text.trim path)).filter (fun segment => !segment.isEmpty))

/-- The folders where secrets are kept by convention, as templates. -/
def folders : List String :=
  ["$(vaultPath)", "$(vaultBasePath)/$(vaultPipelineName)", "$(vaultBasePath)/GROUP-SECRETS"]

/-- The paths that templates give, in order, as far as everything in them is set; `key` names the
templates in errors. -/
def ofTemplates (key : String) (config : Mapping) :
    List String → Except ConfigError (List String)
  | [] => .ok []
  | template :: rest =>
    if Template.isResolvable template config then do
      let path ← Template.interpolate key template config
      let more ← ofTemplates key config rest
      let path := normalize path
      .ok (if path.isEmpty then more else path :: more)
    else ofTemplates key config rest

end SecretPath

namespace ResourceReference

/-- The name of the secret: what the configuration says under the name of the reference, or else
the default. -/
def secretName? (r : ResourceReference) (config : Mapping) : Option String :=
  let configured? := match config.string? r.name with
    | some s => if s.isEmpty then none else some s
    | none => none
  match configured?.or r.default? with
  | some s => if s.isEmpty then none else some s
  | none => none

/-- The templates of the paths. -/
def templates (r : ResourceReference) (config : Mapping) : List String :=
  if r.paths.isEmpty then
    match r.secretName? config with
    | some name => SecretPath.folders.map (fun folder => folder ++ "/" ++ name)
    | none => []
  else r.paths

/-- The paths to look at, in order. -/
def secretPaths (r : ResourceReference) (config : Mapping) : Except ConfigError (List String) :=
  SecretPath.ofTemplates r.name config (r.templates config)

end ResourceReference

namespace Parameter

/-- The field of a secret that is meant for the parameter: the first that is not empty under its
name and its aliases. -/
def fieldValue? (p : Parameter) (data : SecretData) : Option String :=
  (p.name :: p.aliases.map Alias.name).findSome? (fun field =>
    match Assoc.get? data field with
    | some v => if v.isEmpty then none else some v
    | none => none)

/-- The reference into the key-value store, and whether the secret is to be put into a file. -/
def kvReference? (p : Parameter) : Option (ResourceReference × Bool) :=
  ((p.reference? vaultSecret).map (fun r => (r, false))).or
    ((p.reference? vaultSecretFile).map (fun r => (r, true)))

end Parameter

end PipelineConfig
