import PipelineConfig.Condition.Document
import PipelineConfig.Pipeline.Definition
import PipelineConfig.Yaml.Generic

/-!
# Stage definitions

What decides on the steps of a pipeline comes in two formats: a stage condition document or a
pipeline definition. A document is a pipeline definition when it is a mapping with the key `spec`
in which, read as data, no key occurs twice; everything else is a stage condition document.
-/

namespace PipelineConfig

/-- What decides on the steps of a pipeline. -/
inductive StageDefinition
  | conditions (document : StageDocument)
  | pipeline (definition : PipelineDefinition)

namespace StageDefinition

/-- The definition of a text in either format; `document` names it in errors. -/
def ofText (document s : String) : Except ConditionError StageDefinition :=
  if Yaml.hasKey s "spec" then (PipelineDefinition.ofText document s).map pipeline
  else (StageDocument.ofText document s).map conditions

/-- The ways to choose the format of a text: by its content, or fixed. -/
inductive Format
  | either | conditions | pipeline
  deriving DecidableEq

/-- How a document is called in errors when it has no name. -/
def Format.documentName : Format → String
  | .pipeline => "pipeline definition"
  | .either | .conditions => "stage configuration"

/-- The definition of a text in a format; `document` names it in errors. -/
def ofTextIn (format : Format) (document s : String) : Except ConditionError StageDefinition :=
  match format with
  | .either => ofText document s
  | .conditions => (StageDocument.ofText document s).map conditions
  | .pipeline => (PipelineDefinition.ofText document s).map pipeline

/-- The definition of a stream in a format; `document` names it in errors. -/
def ofStreamIn (format : Format) (document : String) (stream : ByteStream) :
    Except ConditionError StageDefinition :=
  match stream.readText with
  | .error failure => .error (.unreadable document failure)
  | .ok s => ofTextIn format document s

/-- The number of steps that the definition decides on. -/
def stepCount : StageDefinition → Nat
  | conditions d => d.stepCount
  | pipeline d => d.stepCount

end StageDefinition

end PipelineConfig
