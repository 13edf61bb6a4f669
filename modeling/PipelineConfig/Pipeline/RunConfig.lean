import PipelineConfig.Pipeline.Deactivation
import PipelineConfig.Pipeline.StageDefinition
import PipelineConfig.Resolution.StepConfig

/-!
# Which steps run

`RunConfig` is what is known of the steps of a pipeline: for each stage which of its steps are
active and why the others are not. `RunConfig.evaluate` finds it out for all steps that a
definition decides on. The first step without a verdict ends that, and then nothing changes;
otherwise each stage of the definition replaces what was known of a stage of that name. Within a
stage, of two steps with one name the later one counts, but the reason of an earlier one stays when
the later one is active.
-/

namespace PipelineConfig

/-- A way to get the configuration of a step in a stage. -/
abbrev StepConfigs := (stage step : String) → Except ConfigError Mapping

/-! ### Configurations from documents -/

/-- Where the configuration of each step comes from: documents, and the metadata that is known. -/
structure DocumentStepConfigs where
  documents : DocumentSet
  metadata : List (String × Metadata)
  env : Environment

namespace DocumentStepConfigs

/-- Nothing but documents. -/
def ofDocuments (documents : DocumentSet) (env : Environment) : DocumentStepConfigs :=
  ⟨documents, [], env⟩

/-- Make the metadata of a step known; of two for one step the later one counts. -/
def withMetadata (d : DocumentStepConfigs) (m : Metadata) : DocumentStepConfigs :=
  { d with metadata := Assoc.insert d.metadata m.name m }

/-- The request for the configuration of a step. -/
def request (d : DocumentStepConfigs) (stage step : String) : Request :=
  match Assoc.get? d.metadata step with
  | some m => (Request.bare stage step).withMetadata m
  | none => Request.bare stage step

/-- Put a value under a name unless there is one already. -/
def putNew (m : Mapping) (name : String) (v : Value) : Mapping :=
  if Assoc.contains m name then m else Assoc.insert m name v

/-- Add the sections of the project configuration under their names. -/
def attachSections (project : ConfigDocument) (m : Mapping) : Mapping :=
  let m := putNew m "general" (.mapping project.general)
  let m := putNew m "stages" (ConfigDocument.sectionsValue project.stages)
  putNew m "steps" (ConfigDocument.sectionsValue project.steps)

/-- The configuration of a step without flags, with the sections of the project configuration. -/
def stepConfig (d : DocumentStepConfigs) : StepConfigs := fun stage step => do
  let s ← (d.request stage step).stepConfig d.documents d.env
  .ok (attachSections d.documents.project s.config)

end DocumentStepConfigs

/-! ### The steps of one run -/

/-- Everything that an evaluation depends on, the configurations apart. -/
structure Surroundings where
  registry : Registry
  glob : Glob
  openFile : OpenFile
  orchestrator : Orchestrator
  /-- The directory that holds the pipeline environment. -/
  root : String

/-- A step that is to be decided on: its name, and its verdict once its configuration is known. -/
structure Candidate where
  step : String
  verdict : Mapping → StepVerdict

namespace StageDefinition

/-- The steps that are to be decided on, by stage, in document order. -/
def candidates (w : Surroundings) : StageDefinition → List (String × List Candidate)
  | conditions d =>
    d.stages.map (fun (stage, steps) => (stage, steps.map (fun (step, cs) =>
      ⟨step, fun config => w.registry.deactivation? step cs config w.glob w.openFile⟩)))
  | pipeline d =>
    d.stages.map (fun stage => (stage.reportedName,
      (stage.steps.filter (fun s => s.runsOn w.orchestrator)).map (fun s =>
        ⟨s.name, fun config => s.deactivation? ⟨s.name, config, w.glob, w.openFile, w.root⟩⟩)))

end StageDefinition

namespace Candidate

/-- The verdict on a step in a stage. -/
def decide (c : Candidate) (configs : StepConfigs) (stage : String) : StepVerdict :=
  match configs stage c.step with
  | .error cause => .error (.noConfig c.step cause)
  | .ok config => c.verdict config

end Candidate

/-- What an evaluation finds out about a stage. -/
structure StageRun where
  name : String
  steps : List (String × Bool)
  reasons : List (String × Deactivation)
  deriving DecidableEq, Repr

namespace StageRun

/-- Nothing is known of the steps yet. -/
def start (name : String) : StageRun := ⟨name, [], []⟩

/-- Take down the verdict on a step. -/
def record (r : StageRun) (step : String) (reason? : Option Deactivation) : StageRun :=
  { r with
    steps := Assoc.set r.steps step reason?.isNone
    reasons := match reason? with
      | some reason => Assoc.set r.reasons step reason
      | none => r.reasons }

/-- Whether some step of the stage is active. -/
def isActive (r : StageRun) : Bool :=
  r.steps.any Prod.snd

/-- Decide on the steps of a stage. -/
def decideAll (configs : StepConfigs) :
    StageRun → List Candidate → Except ConditionError StageRun
  | r, [] => .ok r
  | r, c :: rest => do
    let reason? ← c.decide configs r.name
    decideAll configs (r.record c.step reason?) rest

end StageRun

/-! ### All runs -/

/-- Which steps run: by stage which steps are active, whether any is, and the reasons of those that
are not. -/
structure RunConfig where
  runSteps : List (String × List (String × Bool))
  runStages : List (String × Bool)
  deactivations : List (String × List (String × Deactivation))
  deriving DecidableEq, Repr

namespace RunConfig

/-- Nothing is known. -/
def empty : RunConfig := ⟨[], [], []⟩

/-- Take over what was found out about a stage. -/
def adopt (r : RunConfig) (s : StageRun) : RunConfig :=
  { runStages := Assoc.set r.runStages s.name s.isActive
    runSteps := Assoc.set r.runSteps s.name s.steps
    deactivations :=
      if s.reasons.isEmpty then r.deactivations
      else Assoc.set r.deactivations s.name s.reasons }

/-- Decide on all steps of all stages. -/
def stageRuns (configs : StepConfigs) (stages : List (String × List Candidate)) :
    Except ConditionError (List StageRun) :=
  stages.mapM (fun (name, candidates) => (StageRun.start name).decideAll configs candidates)

/-- Evaluate a definition; an error leaves everything as it was. -/
def evaluate (r : RunConfig) (definition : StageDefinition) (w : Surroundings)
    (configs : StepConfigs) : Except ConditionError RunConfig := do
  let runs ← stageRuns configs (definition.candidates w)
  .ok (runs.foldl adopt r)

/-- The steps whose configuration an evaluation asks for, up to the first one without a verdict. -/
def consulted (definition : StageDefinition) (w : Surroundings) (configs : StepConfigs) :
    List (String × String) :=
  let all := (definition.candidates w).flatMap (fun (stage, cs) => cs.map (fun c => (stage, c)))
  let decided := all.takeWhile (fun (stage, c) => (c.decide configs stage).toOption.isSome)
  (all.take (decided.length + 1)).map (fun (stage, c) => (stage, c.step))

/-! ### Questions -/

/-- Whether a step is active, if that is known. -/
def stepActive? (r : RunConfig) (stage step : String) : Option Bool :=
  (Assoc.get? r.runSteps stage).bind (fun steps => Assoc.get? steps step)

/-- Whether a stage is active, if that is known. -/
def stageActive? (r : RunConfig) (stage : String) : Option Bool :=
  Assoc.get? r.runStages stage

/-- Why a step is not active. -/
def reason? (r : RunConfig) (stage step : String) : Option Deactivation :=
  (Assoc.get? r.deactivations stage).bind (fun reasons => Assoc.get? reasons step)

end RunConfig

end PipelineConfig
