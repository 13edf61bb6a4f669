import PipelineConfig.Value.Merge

/-!
# Configuration documents

A configuration document has general settings, sections for stages and for steps, settings for
collaborators (`hooks`), and the names of further documents. The project configuration and the
default documents have this one form; which of their sections count depends on the place they have
in a `DocumentSet`.
-/

namespace PipelineConfig

/-- A configuration document. -/
structure ConfigDocument where
  customDefaults : List String
  general : Mapping
  stages : List (String × Mapping)
  steps : List (String × Mapping)
  hooks : Mapping

/-- The documents that a configuration is made from, lowest precedence first in each list. -/
structure DocumentSet where
  project : ConfigDocument
  defaults : List ConfigDocument
  /-- The documents that the project configuration lists as custom defaults. -/
  customDefaults : List ConfigDocument

namespace ConfigDocument

/-- The document without any content. -/
def empty : ConfigDocument := ⟨[], [], [], [], []⟩

instance : Inhabited ConfigDocument := ⟨empty⟩

/-- The section of a step. -/
def stepSection? (d : ConfigDocument) (step : String) : Option Mapping :=
  Assoc.get? d.steps step

/-- The section of a stage. -/
def stageSection? (d : ConfigDocument) (stage : String) : Option Mapping :=
  Assoc.get? d.stages stage

/-- Sections as one value. -/
def sectionsValue (sections : List (String × Mapping)) : Value :=
  .mapping (Assoc.mapValues Value.mapping sections)

/-- The names under which a document is written; lists and hooks only when there is something. -/
def writtenNames (d : ConfigDocument) : List String :=
  (if d.customDefaults.isEmpty then [] else ["customDefaults"]) ++ ["general"]
    ++ (if d.hooks.isEmpty then [] else ["hooks"]) ++ ["stages", "steps"]

end ConfigDocument

/-- The set of one document. -/
def DocumentSet.ofProject (d : ConfigDocument) : DocumentSet := ⟨d, [], []⟩

end PipelineConfig
