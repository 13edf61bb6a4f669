import PipelineConfig.CommandLine.Options

/-!
# The arguments of the program

The program has two commands: `get-config` prints the configuration of a step, and
`check-step-active` says whether a step runs. Some options belong to the program as a whole; they
may stand before or behind the command, and the one behind it counts.
-/

namespace PipelineConfig.CommandLine

/-! ### Assignments -/

/-- The name and the value that a text assigns to each other. -/
def assignment? (s : String) : Option (String × String) :=
  match Text.cut? '=' s.toList with
  | some (c :: name, v) => some (String.ofList (c :: name), String.ofList v)
  | _ => none

/-- The message that a text is no assignment. -/
def assignmentMessage (s : String) : String :=
  "Invalid key=value pair: " ++ s

/-! ### Commands -/

/-- What `get-config` is given. -/
structure GetConfig where
  metadata : String
  stageName : String
  /-- The step; otherwise it is the one that the metadata belongs to. -/
  stepName? : Option String
  paramJson : String
  params : List (String × String)
  resolveSecrets : Bool
  outputFile? : Option String
  credentialsFile? : Option String
  deriving DecidableEq, Repr

/-- What `check-step-active` is given. -/
structure CheckStepActive where
  stageConfig : String
  step : String
  /-- The stage to look at; otherwise any of them. -/
  stage? : Option String
  metadata : List String
  environmentRoot : String
  stageOutputFile? : Option String
  stepOutputFile? : Option String
  deriving DecidableEq, Repr

/-- A command. -/
inductive Command
  | getConfig (c : GetConfig)
  | checkStepActive (c : CheckStepActive)
  deriving DecidableEq, Repr

/-- All that the program is given. -/
structure Arguments where
  command : Command
  verbose : Bool
  config : String
  defaults : List String
  ignoreCustomDefaults : Bool
  deriving DecidableEq, Repr

/-! ### Options -/

private def option (name : String) (kind : OptionKind) (letter? : Option Char) : OptionSpec :=
  ⟨name, letter?, kind, fun _ => true⟩

/-- The option that asks for help. -/
def helpOption : OptionSpec := option "help" .help (some 'h')

/-- The options of the program as a whole. -/
def globalOptions : List OptionSpec :=
  [option "verbose" .flag (some 'v'), option "config" .single (some 'c'),
    option "defaults-config" .repeated none, option "ignore-custom-defaults" .flag none]

/-- The program before its command. -/
def program : CommandSpec :=
  ⟨globalOptions ++ [helpOption, option "version" .version (some 'V')],
    ["get-config", "check-step-active", "help"]⟩

/-- The command `get-config`. -/
def getConfigSpec : CommandSpec :=
  ⟨[option "metadata" .single (some 'm'), option "stage-name" .single none,
      option "step-name" .single none, option "param-json" .single none,
      ⟨"param", none, .repeated, fun s => (assignment? s).isSome⟩,
      option "resolve-secrets" .flag none, option "output-file" .single none,
      option "credentials-env-file" .single none] ++ globalOptions ++ [helpOption],
    []⟩

/-- The command `check-step-active`. -/
def checkStepActiveSpec : CommandSpec :=
  ⟨[option "stage-config" .single none, option "step" .single none, option "stage" .single none,
      option "metadata" .repeated none, option "env-root-path" .single none,
      option "stage-output-file" .single none, option "step-output-file" .single none]
      ++ globalOptions ++ [helpOption],
    []⟩

/-! ### Reading -/

/-- Read all options of a command that has no subcommands. -/
def readOptions (c : CommandSpec) (args : List String) : Except UsageFault OptionValues := do
  let (r, _) ← c.read .start args
  r.settle

/-- The value of an option that must be given. -/
def required (r : OptionValues) (name : String) : Except UsageFault String :=
  match r.value? name with
  | some v => .ok v
  | none => .error .missingArgument

/-- What options give `get-config`. Credentials can only be written when secrets are resolved. -/
def GetConfig.ofOptions (r : OptionValues) : Except UsageFault GetConfig := do
  let metadata ← required r "metadata"
  let c : GetConfig :=
    { metadata := metadata
      stageName := (r.value? "stage-name").getD ""
      stepName? := r.value? "step-name"
      paramJson := (r.value? "param-json").getD ""
      params := (r.values "param").filterMap assignment?
      resolveSecrets := r.has "resolve-secrets"
      outputFile? := r.value? "output-file"
      credentialsFile? := r.value? "credentials-env-file" }
  if c.credentialsFile?.isSome && !c.resolveSecrets then .error .missingArgument else .ok c

/-- What options give `check-step-active`. -/
def CheckStepActive.ofOptions (r : OptionValues) : Except UsageFault CheckStepActive := do
  let stageConfig ← required r "stage-config"
  let step ← required r "step"
  .ok
    { stageConfig := stageConfig
      step := step
      stage? := r.value? "stage"
      metadata := r.values "metadata"
      environmentRoot := (r.value? "env-root-path").getD ".pipeline"
      stageOutputFile? := r.value? "stage-output-file"
      stepOutputFile? := r.value? "step-output-file" }

/-- The configuration document when none is named. -/
def defaultConfig : String := ".pipeline/config.yml"

/-- The values of an option of the program as a whole: those behind the command, if there are any,
or else those before it. -/
def globalValues (before behind : OptionValues) (name : String) : List String :=
  if behind.has name then behind.values name else before.values name

/-- Put together what was read before and behind the command. -/
def Arguments.assemble (command : Command) (before behind : OptionValues) : Arguments :=
  { command := command
    verbose := before.has "verbose" || behind.has "verbose"
    config := ((globalValues before behind "config").head?).getD defaultConfig
    defaults := globalValues before behind "defaults-config"
    ignoreCustomDefaults :=
      before.has "ignore-custom-defaults" || behind.has "ignore-custom-defaults" }

/-- Read the arguments of the program, its own name apart. -/
def Arguments.read (args : List String) : Except UsageFault Arguments := do
  let (before, rest?) ← program.read .start args
  match rest? with
  | none =>
    let before ← before.settle
    if before.given.isEmpty then .error .nothingGiven else .error .missingSubcommand
  | some (name, rest) =>
    let (command, behind) ←
      if name = "get-config" then do
        let r ← readOptions getConfigSpec rest
        let c ← GetConfig.ofOptions r
        .ok (Command.getConfig c, r)
      else do
        let r ← readOptions checkStepActiveSpec rest
        let c ← CheckStepActive.ofOptions r
        .ok (Command.checkStepActive c, r)
    let before ← before.settle
    .ok (.assemble command before behind)

end PipelineConfig.CommandLine
