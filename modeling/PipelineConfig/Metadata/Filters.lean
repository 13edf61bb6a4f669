import PipelineConfig.Metadata.Basic

/-!
# Which place may set what

From the metadata of a step follow six lists of names: for each scope the names that it may set,
and the names that may be set at all. The names come from the parameters, each with the values it
depends on, from the surroundings (secrets, containers), and from the settings of the key-value
store once a parameter refers to it. The name `verbose` may always be set, except through the
environment scope, so none of the other lists is ever empty.
-/

namespace PipelineConfig

/-- The names that each scope may set, and those that may be set at all. An empty list is no
restriction. -/
structure Filters where
  all : List String
  general : List String
  steps : List String
  stages : List String
  parameters : List String
  env : List String
  deriving DecidableEq, Repr, Inhabited

namespace Filters

/-- No restriction anywhere. -/
def none : Filters := ⟨[], [], [], [], [], []⟩

/-- The same names in every list. -/
def uniform (names env : List String) : Filters :=
  ⟨names, names, names, names, names, env⟩

/-- The list of a scope. -/
def scope (f : Filters) : Scope → List String
  | .general => f.general
  | .steps => f.steps
  | .stages => f.stages
  | .parameters => f.parameters
  | .env => f.env

/-- Append the lists of other filters. -/
def append (f g : Filters) : Filters :=
  ⟨f.all ++ g.all, f.general ++ g.general, f.steps ++ g.steps, f.stages ++ g.stages,
    f.parameters ++ g.parameters, f.env ++ g.env⟩

/-- Append names to the list of a scope. -/
def extend (f : Filters) (names : List String) : Scope → Filters
  | .general => { f with general := f.general ++ names }
  | .steps => { f with steps := f.steps ++ names }
  | .stages => { f with stages := f.stages ++ names }
  | .parameters => { f with parameters := f.parameters ++ names }
  | .env => { f with env := f.env ++ names }

end Filters

/-- The parameter that may always be set. -/
def verboseParameter : String := "verbose"

/-- Settings of the container of a step. -/
def containerSettings : List String :=
  ["containerCommand", "containerShell", "dockerEnvVars", "dockerImage", "dockerName",
    "dockerOptions", "dockerPullImage", "dockerVolumeBind", "dockerWorkspace"]

/-- Settings of a container beside a step. -/
def sidecarSettings : List String :=
  ["containerName", "containerPortMappings", "dockerName", "sidecarEnvVars", "sidecarImage",
    "sidecarName", "sidecarOptions", "sidecarPullImage", "sidecarReadyCommand",
    "sidecarVolumeBind", "sidecarWorkspace"]

/-- Settings that a lookup in the key-value store reads. -/
def vaultSettings : List String :=
  ["vaultServerUrl", "vaultNamespace", "vaultPath", "vaultBasePath", "vaultPipelineName",
    "vaultCredentialPath", "vaultCredentialKeys", "vaultCredentialEnvPrefix",
    "vaultTestCredentialPath", "vaultTestCredentialKeys", "vaultTestCredentialEnvPrefix"]

namespace Parameter

/-- The name of a parameter and the values it depends on, which name mappings with its default. -/
def filterNames (p : Parameter) : List String :=
  p.name :: p.dependencies.map Dependency.value

end Parameter

namespace Metadata

/-- Add the names of a parameter to the lists of its scopes. -/
def addParameter (f : Filters) (p : Parameter) : Filters :=
  p.scopes.foldl (fun f s => f.extend p.filterNames s)
    { f with all := f.all ++ p.filterNames }

/-- The filters that the parameters make. -/
def parameterFilters (m : Metadata) : Filters :=
  m.parameters.foldl addParameter (.uniform [verboseParameter] [])

/-- Names that come with the surroundings of the step. -/
def contextNames (m : Metadata) : List String :=
  m.secrets.map SecretInput.name
    ++ (if m.resources.any (fun r => r.type = "stash") then ["stashContent"] else [])
    ++ (if m.containers.isEmpty then []
      else containerSettings
        ++ ((m.containers.flatMap Container.conditions).flatMap ParameterCondition.params).flatMap
          (fun d => [d.value, d.name]))
    ++ (if m.sidecars.isEmpty then [] else sidecarSettings)
    ++ (if m.hasReference vaultSecret then
        ["vaultAppRoleTokenCredentialsId", "vaultAppRoleSecretTokenCredentialsId"]
      else [])

/-- Names that a lookup in the key-value store reads, if there may be one. -/
def vaultNames (m : Metadata) : List String :=
  if m.hasReference vaultSecret || m.hasReference vaultSecretFile then
    vaultSettings ++ m.parameters.flatMap (fun p =>
      ((p.reference? vaultSecret).toList ++ (p.reference? vaultSecretFile).toList).map
        ResourceReference.name)
  else []

/-- The filters that the surroundings make. -/
def contextFilters (m : Metadata) : Filters :=
  .uniform (m.contextNames ++ m.vaultNames) m.contextNames

/-- All filters of a step. -/
def filters (m : Metadata) : Filters :=
  m.parameterFilters.append m.contextFilters

end Metadata

end PipelineConfig
