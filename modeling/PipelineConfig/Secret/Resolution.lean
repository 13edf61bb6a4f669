import PipelineConfig.Secret.Basic

/-!
# Filling secret parameters

`Secrets.resolve` gives values to the parameters of a step that have none and refer to a secret.
First the key-value store is asked for each parameter in turn, at one path after the other until a
secret has the field that is meant for the parameter. Then the trust service is asked for those
that are still without a value, and what goes wrong there only leaves a parameter without one.

A value is always made known to the redactor before a parameter takes it.
-/

namespace PipelineConfig

/-- Where the value of a parameter came from. -/
inductive SecretSource
  | kv (path : String)
  /-- From a path of the key-value store, by way of a file. -/
  | kvFile (path file : String)
  | trustService (system : String)
  deriving DecidableEq, Repr

/-- A parameter that got its value from a provider. -/
structure ResolvedSecret where
  parameter : String
  source : SecretSource
  deriving DecidableEq, Repr

/-- Which providers there are to ask. -/
structure SecretProviders where
  store : Bool
  issuer : Bool
  deriving DecidableEq, Repr

namespace Secrets

open Lookup

/-! ### Files -/

/-- The directory of the secret files, which is made when it is needed first. -/
def directoryFor (parameter : String) : Lookup String := do
  match (← state).directory? with
  | some directory => pure directory
  | none =>
    match ← ask (.file .makeDirectory) with
    | .error failure => throw (.notWritten parameter failure)
    | .ok directory => do
      modify (fun s => { s with directory? := some directory })
      pure directory

/-- Put a secret into a new file; the outcome is the path of the file. -/
def writeFile (parameter content : String) : Lookup String := do
  let directory ← directoryFor parameter
  match ← ask (.file (.write directory parameter content)) with
  | .error failure => throw (.notWritten parameter failure)
  | .ok file => do
    perform (.wrote file content)
    pure file

/-- Remove all secret files. -/
def removeFiles : Lookup Bool := do
  match (← state).directory? with
  | none => pure true
  | some directory => do
    modify (fun s => { s with directory? := none })
    match ← ask (.file (.removeDirectory directory)) with
    | .ok () => pure true
    | .error _ => pure false

/-- Leave the secret files to whoever uses them; the outcome is their directory. -/
def releaseFiles : Lookup (Option String) := do
  let directory? := (← state).directory?
  modify (fun s => { s with directory? := none })
  pure directory?

/-! ### The key-value store -/

/-- Let a parameter take the value that was found for it at a path. -/
def adopt (p : Parameter) (asFile : Bool) (path secret : String) : Lookup ResolvedSecret :=
  if asFile then do
    let file ← writeFile p.name secret
    perform (.masked secret)
    perform (.adopted p.name file)
    pure ⟨p.name, .kvFile path file⟩
  else do
    perform (.masked secret)
    perform (.adopted p.name secret)
    pure ⟨p.name, .kv path⟩

/-- Look for the value of a parameter at one path after the other. -/
def searchPaths (p : Parameter) (asFile : Bool) : List String → Lookup (Option ResolvedSecret)
  | [] => pure none
  | path :: rest => do
    let data? ← read path
    match data?.bind p.fieldValue? with
    | some secret => some <$> adopt p asFile path secret
    | none => searchPaths p asFile rest

/-- Look for the value of a parameter in the key-value store. -/
def searchStore (p : Parameter) : Lookup (Option ResolvedSecret) :=
  match p.kvReference? with
  | none => pure none
  | some (reference, asFile) => do
    let s ← state
    if s.hasValue p.name then pure none
    else match reference.secretPaths s.step.config with
      | .error cause => throw (.noPath cause)
      | .ok paths => searchPaths p asFile paths

/-! ### The trust service -/

/-- The system that the trust service is asked for. -/
def system? (p : Parameter) : Option String :=
  match (p.reference? trustEngineSecret).bind ResourceReference.default? with
  | some system => if system.isEmpty then none else some system
  | none => none

/-- Let a parameter take the token of a system, if there is one among some tokens. -/
def adoptToken (p : Parameter) (system : String) (tokens : List (String × String)) :
    Lookup (Option ResolvedSecret) :=
  match Assoc.get? tokens system with
  | none => pure none
  | some token =>
    if token.isEmpty then pure none
    else do
      perform (.masked token)
      perform (.adopted p.name token)
      pure (some ⟨p.name, .trustService system⟩)

/-- Ask the trust service for the value of a parameter. Only a cancellation ends the lookup. -/
def askIssuer (p : Parameter) : Lookup (Option ResolvedSecret) :=
  match system? p with
  | none => pure none
  | some system => do
    if (← state).hasValue p.name then pure none
    else do
      let tokens ← tryCatch (issue [system]) (fun e =>
        match e with
        | .cancelled => throw .cancelled
        | _ => pure [])
      adoptToken p system tokens

/-! ### All parameters -/

/-- Do something for one parameter after the other, and collect what came of it. -/
def forEach (f : Parameter → Lookup (Option ResolvedSecret)) :
    List Parameter → Lookup (List ResolvedSecret)
  | [] => pure []
  | p :: rest => do
    let found? ← f p
    let more ← forEach f rest
    pure (found?.toList ++ more)

/-- Fill the parameters that have no value and refer to a secret. -/
def resolve (providers : SecretProviders) (parameters : List Parameter) :
    Lookup (List ResolvedSecret) := do
  let fromStore ← if providers.store then forEach searchStore parameters else pure []
  let fromIssuer ← if providers.issuer then forEach askIssuer parameters else pure []
  pure (fromStore ++ fromIssuer)

end Secrets

end PipelineConfig
