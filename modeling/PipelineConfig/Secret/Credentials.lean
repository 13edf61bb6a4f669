import PipelineConfig.Secret.Resolution
import PipelineConfig.Text.Quoted

/-!
# Credentials

A credential bundle is a secret of the key-value store. The configuration names bundles, the keys
that are wanted of each, and what the environment variables for them begin with; the bundles are
paired with keys and beginnings by their position. There are two families of such settings, for
credentials in general and for those of tests.

Nothing is put into the environment here: the outcome is a list of variables with their values.
-/

namespace PipelineConfig

/-- The settings of a family of credentials. -/
structure CredentialFamily where
  pathKey : String
  keysKey : String
  prefixKey : String
  /-- What variables begin with when the configuration does not say. -/
  default? : Option String
  /-- What variables begin with in any case, for a second set of them. -/
  always? : Option String
  deriving DecidableEq, Repr

/-- A variable to be exported. -/
structure CredentialExport where
  name : String
  value : String
  deriving DecidableEq, Repr

namespace CredentialExport

/-- How a variable is shown: without its value. -/
def shown (e : CredentialExport) : String :=
  "CredentialExport \x7b name: " ++ Text.quoted e.name ++ ", .. \x7d"

/-- The line of a variable in a file that sets variables. -/
def line (e : CredentialExport) : String :=
  e.name ++ "=" ++ e.value ++ "\n"

end CredentialExport

namespace Credentials

/-! ### Names of variables -/

/-- Write every run of characters other than ASCII letters and digits as one underscore. -/
def collapse : (inRun : Bool) → List Char → List Char
  | _, [] => []
  | inRun, c :: rest =>
    if c.isAlphanum then c :: collapse false rest
    else if inRun then collapse true rest
    else '_' :: collapse true rest

/-- The name of the variable for a key: its letters and digits in upper case, with one underscore
for whatever is between them. -/
def variableName (key : String) : String :=
  let collapsed := Text.stripEnd '_' (Text.stripStart '_' (String.ofList (collapse false key.toList)))
  String.ofList (collapsed.toList.map Char.toUpper)

/-! ### Settings -/

/-- Credentials in general. -/
def general : CredentialFamily :=
  { pathKey := "vaultCredentialPath", keysKey := "vaultCredentialKeys",
    prefixKey := "vaultCredentialEnvPrefix", default? := none,
    always? := some "PIPER_VAULTCREDENTIAL_" }

/-- Credentials of tests. -/
def tests : CredentialFamily :=
  { pathKey := "vaultTestCredentialPath", keysKey := "vaultTestCredentialKeys",
    prefixKey := "vaultTestCredentialEnvPrefix", default? := some "PIPER_TESTCREDENTIAL_",
    always? := none }

/-- Both families, in the order in which they are read. -/
def families : List CredentialFamily := [general, tests]

/-- A setting that is a scalar, or a sequence of them, as a list of texts. -/
def textList : Option Value → List String
  | some (.sequence items) => items.filterMap Value.scalarText?
  | some v => v.scalarText?.toList
  | none => []

/-- Whether a value is a sequence. -/
def isSequence : Value → Bool
  | .sequence _ => true
  | _ => false

/-- The keys that are wanted of the bundle at a position. A sequence of sequences has one for each
position, anything else is for all of them. -/
def keysAt (setting? : Option Value) (position : Nat) : List String :=
  match setting? with
  | some (.sequence items) =>
    if items.any isSequence then textList items[position]? else textList setting?
  | _ => textList setting?

/-- What the configuration says the variables of the bundle at a position begin with. -/
def configuredPrefix? (f : CredentialFamily) (config : Mapping) (position : Nat) : Option String :=
  match Assoc.get? config f.prefixKey with
  | none | some .null => f.default?
  | some (.sequence items) => items[position]?.bind Value.scalarText?
  | some v => v.scalarText?

/-- All that the variables of the bundle at a position begin with, each giving one variable. -/
def prefixesAt (f : CredentialFamily) (config : Mapping) (position : Nat) : List String :=
  let configured := (configuredPrefix? f config position).toList
  configured ++ (f.always?.toList.filter (fun p => !configured.contains p))

/-! ### Bundles -/

/-- A setting that is a text other than the empty one. -/
def setting? (config : Mapping) (key : String) : Option String :=
  match config.string? key with
  | some s => if s.isEmpty then none else some s
  | none => none

/-- The paths at which a bundle may be, in order. -/
def locations (config : Mapping) (bundle : String) : List String :=
  let inPath := (setting? config "vaultPath").toList.map (fun path => path ++ "/" ++ bundle)
  let inBase := match setting? config "vaultBasePath" with
    | none => []
    | some base =>
      (setting? config "vaultPipelineName").toList.map (fun pipeline =>
        base ++ "/" ++ pipeline ++ "/" ++ bundle) ++ [base ++ "/GROUP-SECRETS/" ++ bundle]
  (inPath ++ inBase).map SecretPath.normalize

/-- The first of some paths with a secret, and the secret. Whether the cancellation was fired is not
looked at between two paths. -/
def firstSecret : List String → Lookup (Option SecretData)
  | [] => pure none
  | path :: rest => do
    match ← Lookup.await (Lookup.ask (.read path)) with
    | some data => pure (some data)
    | none => firstSecret rest

/-- The variables that a secret gives for some keys: for each key one with each beginning. -/
def exportsOf (data : SecretData) (keys prefixes : List String) : List CredentialExport :=
  keys.flatMap (fun key =>
    match Assoc.get? data key with
    | some v => prefixes.map (fun p => ⟨p ++ variableName key, v⟩)
    | none => [])

/-- The variables of the bundles from a position on. A bundle without keys is not looked for. -/
def bundleExports (f : CredentialFamily) (config : Mapping) :
    (position : Nat) → List String → Lookup (List CredentialExport)
  | _, [] => pure []
  | position, bundle :: rest => do
    let keys := keysAt (Assoc.get? config f.keysKey) position
    let found ←
      if keys.isEmpty then pure []
      else do
        match ← firstSecret (locations config bundle) with
        | some data => pure (exportsOf data keys (prefixesAt f config position))
        | none => pure []
    let more ← bundleExports f config (position + 1) rest
    pure (found ++ more)

/-- The variables of a family; their values are made known as secrets when all have been read. The
cancellation is looked at before the first bundle, and only there. -/
def familyExports (config : Mapping) (f : CredentialFamily) : Lookup (List CredentialExport) := do
  Lookup.checkpoint
  let found ← bundleExports f config 0 (textList (Assoc.get? config f.pathKey))
  found.forM (fun e => Lookup.perform (.masked e.value))
  pure found

/-- The variables of some families. -/
def exportsOfFamilies (config : Mapping) :
    List CredentialFamily → Lookup (List CredentialExport)
  | [] => pure []
  | f :: rest => do
    let found ← familyExports config f
    let more ← exportsOfFamilies config rest
    pure (found ++ more)

/-- The variables of both families; none when there is no key-value store to ask. -/
def exports (providers : SecretProviders) (config : Mapping) : Lookup (List CredentialExport) :=
  if providers.store then exportsOfFamilies config families else pure []

end Credentials

end PipelineConfig
