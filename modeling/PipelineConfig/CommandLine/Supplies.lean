import PipelineConfig.CommandLine.Program

/-!
# What a run looks at

Which files and variables a run of the program may look at follows from its arguments and from the
files that they name. Whoever runs it fetches these things first and makes a `World` of them. The
files come in two turns: those that the arguments name, and those that follow from what is in them.
-/

namespace PipelineConfig

/-- The entries of the pipeline environment that a definition looks at. -/
def StageDefinition.entries : StageDefinition → List String
  | .conditions _ => []
  | .pipeline p =>
    let rules := (p.stages.flatMap PipelineStage.steps).flatMap (fun s =>
      s.conditions ++ s.notActiveConditions)
    rules.flatMap (fun r => Assoc.keys (r.environment?.getD []) ++ [r.environmentFilled])

namespace CommandLine

/-- What a stream is read as, if it can be opened and read. -/
private def readAs? {ε α : Type} (openFile : OpenFile) (read : String → ByteStream → Except ε α)
    (name : String) : Option α :=
  match openFile name with
  | .ok stream => (read name stream).toOption
  | .error _ => none

namespace Arguments

/-- The files that hold metadata of steps. -/
def metadataFiles (a : Arguments) : List String :=
  match a.command with
  | .getConfig c => [c.metadata]
  | .checkStepActive c => c.metadata

/-- The files that hold definitions of stages. -/
def definitionFiles (a : Arguments) : List String :=
  match a.command with
  | .getConfig _ => []
  | .checkStepActive c => [c.stageConfig]

/-- Where the pipeline environment is. -/
def environmentRoot (a : Arguments) : String :=
  match a.command with
  | .getConfig _ => RuleCall.defaultRoot
  | .checkStepActive c => c.environmentRoot

/-- Whether patterns are matched against the files of the working directory. -/
def looksForFiles (a : Arguments) : Bool :=
  !a.definitionFiles.isEmpty

/-- The files that the arguments name. -/
def namedFiles (a : Arguments) : List String :=
  a.metadataFiles ++ a.definitionFiles ++ a.config :: a.defaults

/-- The files of the pipeline environment that definitions look at. -/
def environmentFiles (a : Arguments) (openFile : OpenFile) : List String :=
  let definitions := a.definitionFiles.filterMap
    (readAs? openFile (StageDefinition.ofStreamIn .either))
  let call : RuleCall := ⟨"", [], fun _ => .ok [], openFile, a.environmentRoot⟩
  (definitions.flatMap StageDefinition.entries).flatMap (fun entry =>
    [call.entryPath entry, call.entryPath entry ++ ".json"])

/-- The files that follow from what is in the files that the arguments name. -/
def furtherFiles (a : Arguments) (openFile : OpenFile) : List String :=
  let projects := [a.config].filterMap (readAs? openFile ConfigDocument.ofStream)
  projects.flatMap ConfigDocument.customDefaults ++ a.environmentFiles openFile

/-- The environment variables that may be looked at. -/
def variableNames (a : Arguments) (openFile : OpenFile) : List String :=
  let metadata := a.metadataFiles.filterMap (readAs? openFile Metadata.ofStream)
  Orchestrator.variableNames
    ++ [SecretServers.storeTokenVariable, SecretServers.issuerTokenVariable]
    ++ metadata.flatMap (fun m => ((Request.bare "" "").withMetadata m).variableNames)

end Arguments

end CommandLine

end PipelineConfig
