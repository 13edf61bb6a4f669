import PipelineConfig.CommandLine.Arguments
import PipelineConfig.Document.Loading
import PipelineConfig.Metadata.Decoding
import PipelineConfig.Json.Printer
import PipelineConfig.Report
import PipelineConfig.Secret.Credentials
import PipelineConfig.Secret.KvServer
import PipelineConfig.Secret.TrustService

/-!
# The program

The program reads documents from its `World`, which does not change while it runs. What it does to
the outside it asks for: requests to servers, files to be written. What it says is collected in a
`Transcript`: JSON on the standard output, lines for people beside it. It may end in `Trouble`,
which says what it was about to do and what kept it from that.
-/

namespace PipelineConfig.CommandLine

/-! ### Questions -/

/-- What the program reads. -/
structure World where
  openFile : OpenFile
  glob : Glob
  env : Environment

/-- What the program asks for. -/
inductive ProgramQuestion
  | send (request : Http.Request)
  | write (path content : String)
  | file (question : SecretFileQuestion)

/-- The replies to each question. -/
def ProgramReply : ProgramQuestion → Type
  | .send _ => Option Http.Response
  | .write _ _ => Except IoFailure Unit
  | .file question => SecretFileReply question

/-- A computation that asks for what the program needs. -/
abbrev ProgramDialog := Dialog ProgramQuestion ProgramReply

/-! ### Trouble -/

/-- What the program was about to do, and what kept it from that, the nearest first. -/
structure Trouble where
  message : String
  causes : List String
  deriving DecidableEq, Repr

namespace Trouble

/-- A text with the same beginning for all its lines but the first. -/
def indented (indent : String) (s : String) : String :=
  ("\n" ++ indent).intercalate (Text.splitOn '\n' s)

/-- The number of a cause, right-aligned. -/
def causeNumber (n : Nat) : String :=
  let digits := toString n
  String.ofList (List.replicate (5 - digits.length) ' ') ++ digits ++ ": "

/-- The lines of a trouble. A single cause has no number. -/
def lines (t : Trouble) : List String :=
  let causes := match t.causes with
    | [] => []
    | [cause] => ["", "Caused by:", "    " ++ indented "    " cause]
    | causes =>
      "" :: "Caused by:" :: causes.zipIdx.map (fun (cause, n) =>
        causeNumber n ++ indented "       " cause)
  (("Error: " ++ t.message) :: causes).flatMap (Text.splitOn '\n')

end Trouble

/-! ### The run of a program -/

/-- What the program has said. -/
structure Transcript where
  output : String
  /-- The lines for people. -/
  lines : List String
  deriving DecidableEq, Repr

/-- A part of the program. -/
abbrev Program := ExceptT Trouble (StateT Transcript ProgramDialog)

namespace Program

/-- Ask a question. -/
def ask (q : ProgramQuestion) : Program (ProgramReply q) :=
  ExceptT.lift (StateT.lift (Dialog.question q))

/-- Go through a dialog. -/
def converse {α : Type} (d : ProgramDialog α) : Program α :=
  ExceptT.lift (StateT.lift d)

/-- Say a line. -/
def say (marker : Marker) (text : String) : Program Unit :=
  modify (fun t => { t with lines := t.lines ++ [Report.line marker text] })

/-- Say lines as they are. -/
def sayAll (lines : List String) : Program Unit :=
  modify (fun t => { t with lines := t.lines ++ lines })

/-- Put a text and the end of its line on the standard output. -/
def print (text : String) : Program Unit :=
  modify (fun t => { t with output := t.output ++ text ++ "\n" })

/-- Give up. -/
def giveUp {α : Type} (message : String) (causes : List String) : Program α :=
  throw ⟨message, causes⟩

/-- Go on with a configuration result. -/
def config {α : Type} (message : String) : Except ConfigError α → Program α
  | .ok a => pure a
  | .error e => giveUp message (e.message :: e.causes)

/-- Go on with a condition result. -/
def condition {α : Type} (message : String) : Except ConditionError α → Program α
  | .ok a => pure a
  | .error e => giveUp message (e.message :: e.causes)

/-- Open a file. -/
def openNamed (w : World) (what name : String) : Program ByteStream :=
  match w.openFile name with
  | .ok stream => pure stream
  | .error failure => giveUp ("Failed to open " ++ what ++ " " ++ name) [failure.message]

/-- Write a file. -/
def writeFile (path content : String) : Program Unit := do
  match ← ask (.write path content) with
  | .ok () => pure ()
  | .error failure => giveUp ("Failed to write " ++ path) [failure.message]

/-- The metadata in a file. -/
def readMetadata (w : World) (name : String) : Program Metadata := do
  let stream ← openNamed w "step metadata" name
  config ("Failed to read step metadata " ++ name) (Metadata.ofStream name stream)

/-- The documents that the arguments name. -/
def loadDocuments (w : World) (a : Arguments) : Program DocumentSet :=
  config "Failed to load configuration"
    (DocumentSet.load w.openFile (some a.config) a.defaults)

end Program

/-! ### Secrets -/

/-- The servers that secrets come from. -/
structure SecretServers where
  store? : Option KvServer
  issuer? : Option TrustService

namespace SecretServers

/-- The variable that holds the token of the key-value store. -/
def storeTokenVariable : String := "PIPER_vaultToken"

/-- The variable that holds the token of the trust service. -/
def issuerTokenVariable : String := "PIPER_trustEngineToken"

/-- A variable that is set to something. -/
def token? (env : Environment) (name : String) : Option String :=
  match env name with
  | some token => if token.isEmpty then none else some token
  | none => none

/-- The servers that a configuration names, as far as there are tokens for them. -/
def ofConfig (env : Environment) (s : StepConfig) : SecretServers :=
  { store? := (token? env storeTokenVariable).bind (KvServer.ofConfig? s.config)
    issuer? := (token? env issuerTokenVariable).bind (TrustService.ofHooks? s.hooks) }

/-- Which of them there are. -/
def providers (s : SecretServers) : SecretProviders :=
  ⟨s.store?.isSome, s.issuer?.isSome⟩

/-- Have a conversation with a server. -/
def converse {α : Type} (c : Http.Conversation (Except SecretError α)) :
    ProgramDialog (Answer α) := do
  let result ← c.translate (fun request => Dialog.question (.send request))
  pure (match result with
    | .ok a => .found a
    | .error e => .failed e)

/-- Pass the question of a lookup on to a server, or to whoever keeps the files. -/
def pass (s : SecretServers) : (q : SecretQuestion) → ProgramDialog (SecretReply q)
  | .read path =>
    match s.store? with
    | some server => converse (server.secret path)
    | none => pure (.found none)
  | .issue systems =>
    match s.issuer? with
    | some service => converse (service.issue systems)
    | none => pure (.found [])
  | .file question => Dialog.question (R := ProgramReply) (ProgramQuestion.file question)

end SecretServers

namespace Program

/-- Carry a lookup on; the outcome is its result and its state. -/
def lookUp {α : Type} (servers : SecretServers) (l : Lookup α) (s : SecretRun) :
    Program (Except SecretError α × SecretRun) :=
  converse ((l.runFrom s).translate servers.pass)

/-- Give up on secrets. Secret files that nobody was told of are removed. -/
def giveUpSecrets {α : Type} (servers : SecretServers) (message : String) (e : SecretError)
    (s : SecretRun) : Program α := do
  let _ ← lookUp servers Secrets.removeFiles s
  giveUp message (e.message :: e.causes)

/-- Write the credentials to a file, if there is to be one, or else say that there are some. -/
def deliverCredentials (file? : Option String) (found : List CredentialExport) : Program Unit :=
  match file? with
  | some path => do
    writeFile path (String.join (found.map CredentialExport.line))
    say .info (toString found.length ++ " credential variable(s) written to " ++ path)
  | none =>
    if found.isEmpty then pure ()
    else say .warning (toString found.length
      ++ " credential variable(s) found, use --credentials-env-file to export them")

/-- Fill the secret parameters of a step, and read its credentials. Secret files are left to whoever
uses the configuration as soon as the parameters are filled. -/
def resolveSecrets (w : World) (c : GetConfig) (m : Metadata) (step : StepConfig) :
    Program StepConfig := do
  let servers := SecretServers.ofConfig w.env step
  let providers := servers.providers
  let (result, s) ← lookUp servers (Secrets.resolve providers m.parameters) (.start step)
  match result with
  | .error e => giveUpSecrets servers "Failed to resolve secrets" e s
  | .ok resolved => do
    sayAll (resolved.map Report.secretLine)
    let (_, released) ← lookUp servers Secrets.releaseFiles s
    match s.directory? with
    | some directory =>
      say .warning ("Secret files written to " ++ directory
        ++ ", remove them once the step has run")
    | none => pure ()
    let (result, s) ← lookUp servers (Credentials.exports providers s.step.config) released
    match result with
    | .error e => giveUpSecrets servers "Failed to read credentials" e s
    | .ok found => do
      deliverCredentials c.credentialsFile? found
      pure s.step

/-! ### The commands -/

/-- Print the configuration of a step. -/
def getConfig (w : World) (a : Arguments) (c : GetConfig) : Program Nat := do
  let metadata ← readMetadata w c.metadata
  let documents ← loadDocuments w a
  let step := c.stepName?.getD metadata.name
  let flags ← config "Invalid --param value" (metadata.flagValues c.params)
  let request : Request :=
    { (Request.bare c.stageName step).withMetadata metadata with
      paramJson := c.paramJson
      flags := flags
      ignoreCustomDefaults := a.ignoreCustomDefaults }
  let resolved ← config ("Failed to resolve configuration of step " ++ step)
    (request.stepConfig documents w.env)
  let final ← if c.resolveSecrets then resolveSecrets w c metadata resolved else pure resolved
  let json := (Value.mapping final.config).toJson.prettyText
  match c.outputFile? with
  | some path => do
    writeFile path json
    say .info ("Configuration written to " ++ path)
  | none => print json
  pure 0

/-- Write an answer as JSON to a file, if there is to be one. -/
def writeAnswer (file? : Option String) (answer : Json) : Program Unit :=
  match file? with
  | some path => writeFile path answer.prettyText
  | none => pure ()

/-- Whether a step is active in a stage, or in any, if that is known. -/
def activity? (r : RunConfig) (stage? : Option String) (step : String) : Option Bool :=
  match stage? with
  | some stage => r.stepActive? stage step
  | none =>
    let known := r.runSteps.filterMap (fun (_, steps) => Assoc.get? steps step)
    if known.isEmpty then none else some (known.any id)

/-- Say whether a step runs; the outcome is 1 when it does not. -/
def checkStepActive (w : World) (a : Arguments) (c : CheckStepActive) : Program Nat := do
  let stream ← openNamed w "stage configuration" c.stageConfig
  let definition ← condition "Failed to read stage configuration"
    (StageDefinition.ofStreamIn .either c.stageConfig stream)
  let documents ← loadDocuments w a
  let metadata ← c.metadata.mapM (readMetadata w)
  let configs := metadata.foldl DocumentStepConfigs.withMetadata (.ofDocuments documents w.env)
  let surroundings : Surroundings :=
    ⟨.builtin, w.glob, w.openFile, .detect w.env, c.environmentRoot⟩
  let r ← condition "Failed to evaluate stage conditions"
    (RunConfig.empty.evaluate definition surroundings configs.stepConfig)
  if a.verbose then sayAll (Report.runLines r)
  writeAnswer c.stageOutputFile? (.object (Assoc.mapValues Json.bool r.runStages))
  writeAnswer c.stepOutputFile?
    (.object (Assoc.mapValues (fun steps => .object (Assoc.mapValues Json.bool steps)) r.runSteps))
  match activity? r c.stage? c.step with
  | some true => do
    say .check ("Step " ++ c.step ++ " is active")
    pure 0
  | some false => do
    say .cross ("Step " ++ c.step ++ " is not active")
    pure 1
  | none => do
    say .info ("Step " ++ c.step ++ " has no stage conditions and is active")
    pure 0

end Program

/-! ### All of it -/

/-- How the program ends: its exit code and what it has said. -/
structure Ending where
  code : Nat
  output : String
  lines : List String
  deriving DecidableEq, Repr

/-- The name and the version of the program. -/
def versionText : String := "stepconf 0.1.0"

/-- What the program has to say about its usage. -/
def usageLines : List String :=
  ["Resolves step configuration and stage conditions of a CI/CD pipeline", "",
    "Usage: stepconf [OPTIONS] <COMMAND>", "", "Commands:",
    "  get-config         Print the effective configuration of a step",
    "  check-step-active  Evaluate stage conditions and report whether a step runs",
    "  help               Print this message or the help of the given subcommand(s)"]

/-- How the program ends when there is no command to carry out. -/
def UsageFault.ending : UsageFault → Ending
  | .helpWanted => ⟨0, String.join (usageLines.map (fun l => l ++ "\n")), []⟩
  | .versionWanted => ⟨0, versionText ++ "\n", []⟩
  | _ => ⟨2, "", usageLines⟩

/-- Carry out a command. -/
def Arguments.carryOut (w : World) (a : Arguments) : Program Nat :=
  match a.command with
  | .getConfig c => Program.getConfig w a c
  | .checkStepActive c => Program.checkStepActive w a c

/-- Carry out a part of the program and end it. -/
def Program.ending (p : Program Nat) : ProgramDialog Ending := do
  let (result, said) ← (ExceptT.run p).run ⟨"", []⟩
  let lines := said.lines.flatMap (Text.splitOn '\n')
  pure (match result with
    | .ok code => ⟨code, said.output, lines⟩
    | .error trouble => ⟨1, said.output, lines ++ trouble.lines⟩)

/-- Run the program on its arguments. -/
def run (w : World) (args : List String) : ProgramDialog Ending :=
  match Arguments.read args with
  | .error fault => pure fault.ending
  | .ok a => (a.carryOut w).ending

end PipelineConfig.CommandLine
