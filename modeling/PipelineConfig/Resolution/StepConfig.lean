import PipelineConfig.Document.Basic
import PipelineConfig.Json.Reader
import PipelineConfig.Metadata.Filters
import PipelineConfig.Resolution.Aliases
import PipelineConfig.Template

/-!
# The configuration of a step

The configuration of a step is a merge of many sources, each of which may set only the names that
its place allows. From the lowest precedence to the highest they are: the defaults of the
parameters; of each default document, then of each custom default document, the general settings
and the section of the step; of the project configuration the general settings, the section of the
step and the section of the stage; environment variables; parameters given as JSON; flags.

`Request.sources` is that list, after aliases and filters. The configuration is what is left when
the sources have been laid over each other in order, conditional parameters have taken their
values, and references between texts have been resolved.
-/

namespace PipelineConfig

/-- What is asked for: the configuration of a step in a stage. -/
structure Request where
  stage : String
  step : String
  /-- The parameters, for their aliases and conditions. -/
  parameters : List Parameter
  filters : Filters
  defaults : Mapping
  /-- A JSON object with parameters; any other text counts as none. -/
  paramJson : String
  /-- The values that were set by flags. -/
  flags : Mapping
  ignoreCustomDefaults : Bool

/-- The configuration of a step, and the settings for collaborators. -/
structure StepConfig where
  config : Mapping
  hooks : Mapping

namespace Request

/-- A request for a step of which no metadata is known. -/
def bare (stage step : String) : Request :=
  { stage := stage, step := step, parameters := [], filters := .none, defaults := [],
    paramJson := "", flags := [], ignoreCustomDefaults := false }

/-- Take parameters, filters and defaults from the metadata of the step. -/
def withMetadata (r : Request) (m : Metadata) : Request :=
  { r with parameters := m.parameters, filters := m.filters, defaults := m.defaults }

/-! ### Sources -/

/-- A section with the aliases applied that its filter admits. -/
def aliased (r : Request) (allow : List String) (m : Mapping) : Mapping :=
  (applyAliases r.parameters allow m).1

/-- The deprecated aliases that a section uses. -/
def aliasUses (r : Request) (allow : List String) (m : Mapping) : List AliasUse :=
  (applyAliases r.parameters allow m).2

/-- A section as a source: its own names for aliases, then only what the filter admits. -/
def source (r : Request) (allow : List String) (m : Mapping) : Mapping :=
  Mapping.keep (r.aliased allow m) allow

/-- The sources that a default document adds. -/
def defaultSources (r : Request) (d : ConfigDocument) : List Mapping :=
  r.source r.filters.general d.general
    :: ((d.stepSection? r.step).map (r.source r.filters.steps)).toList

/-- The sources that the project configuration adds. -/
def projectSources (r : Request) (d : ConfigDocument) : List Mapping :=
  r.source r.filters.general d.general
    :: ((d.stepSection? r.step).map (r.source r.filters.steps)).toList
    ++ ((d.stageSection? r.stage).map (r.source r.filters.stages)).toList

/-- What environment variables that set parameters begin with. -/
def envPrefix : String := "PIPER_"

/-- The environment variables that are looked at. -/
def variableNames (r : Request) : List String :=
  r.filters.all.map (fun name => envPrefix ++ name)

/-- The parameters that environment variables set; an empty variable sets none. -/
def envSource (r : Request) (env : Environment) : Mapping :=
  Assoc.ofList (r.filters.all.filterMap (fun name =>
    match env (envPrefix ++ name) with
    | some v => if v.isEmpty then none else some (name, Value.string v)
    | none => none))

/-- The parameters that are given as JSON, if the text is an object. -/
def jsonParameters? (r : Request) : Option Mapping :=
  ((Json.read? (Text.trim r.paramJson)).map Value.ofJson).bind Value.asMapping?

/-- The documents below the project configuration, lowest precedence first. -/
def defaultDocuments (r : Request) (ds : DocumentSet) : List ConfigDocument :=
  ds.defaults ++ (if r.ignoreCustomDefaults then [] else ds.customDefaults)

/-- All sources, lowest precedence first. -/
def sources (r : Request) (ds : DocumentSet) (env : Environment) : List Mapping :=
  [r.defaults]
    ++ (r.defaultDocuments ds).flatMap r.defaultSources
    ++ r.projectSources ds.project
    ++ [Mapping.keep (r.envSource env) r.filters.all]
    ++ ((r.jsonParameters?).map (r.source r.filters.parameters)).toList
    ++ [Mapping.keep r.flags r.filters.parameters]

/-! ### Deprecated aliases -/

/-- The deprecated aliases that a document uses in the sections of this step and stage. -/
def documentUses (r : Request) (d : ConfigDocument) : List AliasUse :=
  r.aliasUses r.filters.general d.general
    ++ ((d.stageSection? r.stage).map (r.aliasUses r.filters.stages)).getD []
    ++ ((d.stepSection? r.step).map (r.aliasUses r.filters.steps)).getD []

/-- All uses of deprecated aliases, in the order in which documents are read. -/
def uses (r : Request) (ds : DocumentSet) : List AliasUse :=
  (r.defaultDocuments ds).flatMap r.documentUses
    ++ r.documentUses ds.project
    ++ ((r.jsonParameters?).map (r.aliasUses r.filters.parameters)).getD []

end Request

/-! ### Conditional parameters -/

namespace Parameter

/-- The value that a conditional parameter takes from the mapping named by what it depends on, or
else its default. -/
def conditionalValue? (p : Parameter) (d : Dependency) (m : Mapping) : Option Value :=
  let nested? := ((Assoc.get? m d.value).bind Value.asMapping?).bind (fun inner =>
    Mapping.nonNull? inner p.name)
  nested?.or p.default?

/-- Fill in a conditional parameter that has no value, if what it depends on has the right one. -/
def fillConditional (m : Mapping) (p : Parameter) : Mapping :=
  match p.dependency? with
  | none => m
  | some d =>
    if (m.nonNull? p.name).isSome then m
    else if m.string? d.name = some d.value then
      match p.conditionalValue? d m with
      | some v => Assoc.insert m p.name v
      | none => m
    else m

end Parameter

/-- Fill in conditional parameters, one after the other. -/
def fillConditionals (parameters : List Parameter) (m : Mapping) : Mapping :=
  parameters.foldl Parameter.fillConditional m

/-! ### Resolution -/

namespace Request

/-- The sources laid over each other. -/
def mixed (r : Request) (ds : DocumentSet) (env : Environment) : Mapping :=
  (r.sources ds env).foldl Mapping.merge []

/-- The settings for collaborators, from all documents. -/
def hooks (r : Request) (ds : DocumentSet) : Mapping :=
  ((r.defaultDocuments ds ++ [ds.project]).map ConfigDocument.hooks).foldl Mapping.merge []

/-- The configuration of the step. -/
def stepConfig (r : Request) (ds : DocumentSet) (env : Environment) :
    Except ConfigError StepConfig := do
  let config ← Template.interpolateMapping (fillConditionals r.parameters (r.mixed ds env))
  .ok ⟨config, r.hooks ds⟩

/-- The configuration of the step, and the context with the deprecated names noted. They are noted
also when there is no configuration. -/
def resolve (r : Request) (ds : DocumentSet) (c : Context) :
    Except ConfigError StepConfig × Context :=
  (r.stepConfig ds c.env,
    (r.uses ds).foldl (fun c use => c.note use.name use.parameter r.step) c)

end Request

namespace StepConfig

/-- The value under a name. -/
def get? (s : StepConfig) (name : String) : Option Value :=
  Assoc.get? s.config name

/-- The text under a name. -/
def string? (s : StepConfig) (name : String) : Option String :=
  s.config.string? name

/-- Set a value. -/
def put (s : StepConfig) (name : String) (v : Value) : StepConfig :=
  { s with config := Assoc.insert s.config name v }

end StepConfig

end PipelineConfig
