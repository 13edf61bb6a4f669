import PipelineConfig.Condition.Error
import PipelineConfig.Text.Blank
import PipelineConfig.Yaml.Decoding

/-!
# Pipeline definitions

A pipeline definition lists the stages of a pipeline with their steps. A step has rules of which
any one makes it active, and rules of which any one keeps it from being active. A rule is a record
of several settings, and only the first kind of them that is there counts.
-/

namespace PipelineConfig

/-- The systems that a pipeline may run on. -/
inductive Orchestrator
  | azure | gitHubActions | jenkins | unknown
  deriving DecidableEq, Repr, Inhabited

namespace Orchestrator

/-- The name of a system. -/
def name : Orchestrator → String
  | azure => "Azure"
  | gitHubActions => "GitHubActions"
  | jenkins => "Jenkins"
  | unknown => "Unknown"

/-- All systems. -/
def all : List Orchestrator := [azure, gitHubActions, jenkins, unknown]

/-- Whether variables are all set to something other than `false`. -/
def allSet (env : String → Option String) (names : List String) : Bool :=
  names.all (fun name => match env name with
    | some v => !v.isEmpty && v ≠ "false"
    | none => false)

/-- The variables that show a system when they are all set. -/
def marks : Orchestrator → List String
  | azure => ["AZURE_HTTP_USER_AGENT"]
  | gitHubActions => ["GITHUB_ACTION", "GITHUB_ACTIONS"]
  | jenkins => ["JENKINS_HOME", "JENKINS_URL"]
  | unknown => []

/-- The variables that show systems. -/
def variableNames : List String :=
  all.flatMap marks

/-- The system, by the variables that it sets. -/
def detect (env : String → Option String) : Orchestrator :=
  (all.find? (fun o => allSet env o.marks)).getD unknown

end Orchestrator

/-- A rule of a step. -/
structure Rule where
  /-- Settings and the values that count; there may be one setting only. -/
  config? : Option (List (String × List Value))
  /-- A setting that must be there; `a/b` leads into nested mappings. -/
  configKey : String
  filePattern : String
  /-- The setting that holds a file pattern. -/
  filePatternFromConfig : String
  npmScript : String
  /-- Entries of the pipeline environment and the values that count. -/
  environment? : Option (List (String × Value))
  /-- An entry of the pipeline environment that must be filled. -/
  environmentFilled : String
  inactive : Bool

/-- A step of a stage. -/
structure PipelineStep where
  name : String
  description : String
  /-- Rules of which one is enough to make the step active; without any it is active. -/
  conditions : List Rule
  /-- Rules of which one is enough to keep the step from being active. -/
  notActiveConditions : List Rule
  /-- The systems that have the step; all of them when there are none. -/
  orchestrators : List String

/-- A stage of a pipeline. -/
structure PipelineStage where
  name : String
  /-- The name under which a stage is configured and reported. -/
  displayName : String
  description : String
  steps : List PipelineStep

/-- A pipeline definition. -/
structure PipelineDefinition where
  apiVersion : String
  kind : String
  name : String
  displayName : String
  description : String
  stages : List PipelineStage

/-- The kinds of rule, in the order in which they count. -/
inductive RuleKind
  | config | configKey | filePattern | filePatternFromConfig | npmScript
  | environment | environmentFilled | inactive
  deriving DecidableEq, Repr

/-- The word for a kind of rule in documents. -/
def RuleKind.name : RuleKind → String
  | .config => "config"
  | .configKey => "configKey"
  | .filePattern => "filePattern"
  | .filePatternFromConfig => "filePatternFromConfig"
  | .npmScript => "npmScript"
  | .environment => "commonPipelineEnvironment"
  | .environmentFilled => "pipelineEnvironmentFilled"
  | .inactive => "inactive"

/-- The kind of a rule: the first that is there. -/
def Rule.kind (r : Rule) : RuleKind :=
  if r.config?.isSome then .config
  else if !r.configKey.isEmpty then .configKey
  else if !r.filePattern.isEmpty then .filePattern
  else if !r.filePatternFromConfig.isEmpty then .filePatternFromConfig
  else if !r.npmScript.isEmpty then .npmScript
  else if r.environment?.isSome then .environment
  else if !r.environmentFilled.isEmpty then .environmentFilled
  else .inactive

namespace PipelineStep

/-- Whether a system has the step. -/
def runsOn (s : PipelineStep) (o : Orchestrator) : Bool :=
  s.orchestrators.isEmpty || s.orchestrators.contains o.name

end PipelineStep

namespace PipelineStage

/-- The name under which the stage is configured and reported. -/
def reportedName (s : PipelineStage) : String :=
  if s.displayName.isEmpty then s.name else s.displayName

end PipelineStage

/-! ### Reading -/

open Yaml Yaml.Decoder

/-- Read a rule. -/
def Rule.decoder : Decoder Rule :=
  record
    ⟨["config", "configKey", "filePattern", "filePatternFromConfig", "npmScript",
      "commonPipelineEnvironment", "pipelineEnvironmentFilled", "inactive"], [], false⟩
    ⟨none, "", "", "", "", none, "", false⟩ fun levels r name node => do
      match name with
      | "config" =>
        let es? ← optional (entries (list value)) levels node
        return { r with config? := es?.map Assoc.ofListInOrder }
      | "configKey" => return { r with configKey := ← text levels node }
      | "filePattern" => return { r with filePattern := ← text levels node }
      | "filePatternFromConfig" => return { r with filePatternFromConfig := ← text levels node }
      | "npmScript" => return { r with npmScript := ← text levels node }
      | "commonPipelineEnvironment" =>
        let es? ← optional (entries value) levels node
        return { r with environment? := es?.map Assoc.ofListInOrder }
      | "pipelineEnvironmentFilled" => return { r with environmentFilled := ← text levels node }
      | _ => return { r with inactive := ← bool levels node }

/-- Read a step. -/
def PipelineStep.decoder : Decoder PipelineStep :=
  record ⟨["name", "description", "conditions", "notActiveConditions", "orchestrators"], [], false⟩
    ⟨"", "", [], [], []⟩ fun levels s name node => do
      match name with
      | "name" => return { s with name := ← text levels node }
      | "description" => return { s with description := ← text levels node }
      | "conditions" => return { s with conditions := ← list Rule.decoder levels node }
      | "notActiveConditions" =>
        return { s with notActiveConditions := ← list Rule.decoder levels node }
      | _ => return { s with orchestrators := ← list text levels node }

/-- Read a stage. -/
def PipelineStage.decoder : Decoder PipelineStage :=
  record ⟨["name", "displayName", "description", "steps"], [], false⟩ ⟨"", "", "", []⟩
    fun levels s name node => do
      match name with
      | "name" => return { s with name := ← text levels node }
      | "displayName" => return { s with displayName := ← text levels node }
      | "description" => return { s with description := ← text levels node }
      | _ => return { s with steps := ← list PipelineStep.decoder levels node }

namespace PipelineDefinition

/-- The definition without any content. -/
def empty : PipelineDefinition := ⟨"", "", "", "", "", []⟩

/-- Read the part that says what the pipeline is called. -/
def headDecoder (d : PipelineDefinition) : Decoder PipelineDefinition :=
  record ⟨["name", "displayName", "description"], [], false⟩ d fun levels d name node => do
    match name with
    | "name" => return { d with name := ← text levels node }
    | "displayName" => return { d with displayName := ← text levels node }
    | _ => return { d with description := ← text levels node }

/-- Read a definition. -/
def decoder : Decoder PipelineDefinition :=
  record ⟨["apiVersion", "kind", "metadata", "spec"], [], false⟩ empty fun levels d name node => do
    match name with
    | "apiVersion" => return { d with apiVersion := ← text levels node }
    | "kind" => return { d with kind := ← text levels node }
    | "metadata" => headDecoder d levels node
    | _ =>
      let stages ← record ⟨["stages"], [], false⟩ []
        (fun levels _ _ node => list PipelineStage.decoder levels node) levels node
      return { d with stages := stages }

/-- The definition of a text; `document` names it in errors. -/
def ofText (document s : String) : Except ConditionError PipelineDefinition :=
  if Text.isBlankText s then .ok empty
  else match decoder.readText s with
    | .ok d => .ok d
    | .error fault => .error (.notParsed document fault)

/-- The number of steps that the definition decides on. -/
def stepCount (d : PipelineDefinition) : Nat :=
  (d.stages.flatMap PipelineStage.steps).length

end PipelineDefinition

end PipelineConfig
