import PipelineConfig.Metadata.Basic
import PipelineConfig.Yaml.Decoding

/-!
# Reading step metadata

The metadata document is YAML. Names that it does not know are faults, except in containers, and
no two parameters may have one name.
-/

namespace PipelineConfig

open Yaml Yaml.Decoder

/-- Read an alias. -/
def Alias.decoder : Decoder Alias :=
  record ⟨["name", "deprecated"], ["name"], true⟩ ⟨"", false⟩ fun levels a name node => do
    match name with
    | "name" => return { a with name := ← text levels node }
    | _ => return { a with deprecated := ← bool levels node }

/-- Read a resource reference. -/
def ResourceReference.decoder : Decoder ResourceReference :=
  record ⟨["name", "type", "param", "paths", "default", "aliases"], ["name"], true⟩
    ⟨"", "", none, [], none, []⟩ fun levels r name node => do
      match name with
      | "name" => return { r with name := ← text levels node }
      | "type" => return { r with type := ← text levels node }
      | "param" => return { r with param? := ← optional text levels node }
      | "paths" => return { r with paths := ← list text levels node }
      | "default" => return { r with default? := ← optional text levels node }
      | _ => return { r with aliases := ← list Alias.decoder levels node }

/-- Read a dependency. -/
def Dependency.decoder : Decoder Dependency :=
  record ⟨["name", "value"], ["name", "value"], true⟩ ⟨"", ""⟩ fun levels d name node => do
    match name with
    | "name" => return { d with name := ← text levels node }
    | _ => return { d with value := ← text levels node }

/-- Read a condition. -/
def ParameterCondition.decoder : Decoder ParameterCondition :=
  record ⟨["conditionRef", "params"], [], true⟩ ⟨"", []⟩ fun levels c name node => do
    match name with
    | "conditionRef" => return { c with conditionRef := ← text levels node }
    | _ => return { c with params := ← list Dependency.decoder levels node }

/-- Read a scope. -/
def Scope.decoder : Decoder Scope :=
  word (Scope.all.map (fun s => (s.name, s)))

/-- A parameter of which nothing is known but its name. -/
def Parameter.named (name : String) : Parameter :=
  { name := name, description := "", longDescription := "", references := [], scopes := [],
    type := .string, mandatory := false, default? := none, possibleValues? := none,
    aliases := [], conditions := [], secret := false }

/-- Read a parameter. -/
def Parameter.decoder : Decoder Parameter :=
  record
    ⟨["name", "description", "longDescription", "resourceRef", "scope", "type", "mandatory",
      "default", "possibleValues", "aliases", "conditions", "secret"], ["name"], true⟩
    (Parameter.named "") fun levels p name node => do
      match name with
      | "name" => return { p with name := ← text levels node }
      | "description" => return { p with description := ← text levels node }
      | "longDescription" => return { p with longDescription := ← text levels node }
      | "resourceRef" =>
        return { p with references := ← list ResourceReference.decoder levels node }
      | "scope" => return { p with scopes := ← list Scope.decoder levels node }
      | "type" => return { p with type := ParameterType.ofName (← text levels node) }
      | "mandatory" => return { p with mandatory := ← bool levels node }
      | "default" => return { p with default? := ← optional value levels node }
      | "possibleValues" =>
        return { p with possibleValues? := ← optional (list value) levels node }
      | "aliases" => return { p with aliases := ← list Alias.decoder levels node }
      | "conditions" =>
        return { p with conditions := ← list ParameterCondition.decoder levels node }
      | _ => return { p with secret := ← bool levels node }

/-- Read a secret of the surroundings. -/
def SecretInput.decoder : Decoder SecretInput :=
  record ⟨["name", "description", "type", "aliases"], ["name"], true⟩ ⟨"", "", "", []⟩
    fun levels s name node => do
      match name with
      | "name" => return { s with name := ← text levels node }
      | "description" => return { s with description := ← text levels node }
      | "type" => return { s with type := ← text levels node }
      | _ => return { s with aliases := ← list Alias.decoder levels node }

/-- Read a resource of the surroundings. -/
def ResourceInput.decoder : Decoder ResourceInput :=
  record ⟨["name", "description", "type", "params", "conditions"], ["name"], true⟩
    ⟨"", "", "", [], []⟩ fun levels r name node => do
      match name with
      | "name" => return { r with name := ← text levels node }
      | "description" => return { r with description := ← text levels node }
      | "type" => return { r with type := ← text levels node }
      | "params" => return { r with params := ← list value levels node }
      | _ => return { r with conditions := ← list ParameterCondition.decoder levels node }

/-- Read a container. -/
def Container.decoder : Decoder Container :=
  record
    ⟨["name", "image", "command", "shell", "workingDir", "readyCommand", "imagePullPolicy", "env",
      "options", "conditions"], [], false⟩
    ⟨"", "", [], "", "", "", "", [], [], []⟩ fun levels c name node => do
      match name with
      | "name" => return { c with name := ← text levels node }
      | "image" => return { c with image := ← text levels node }
      | "command" => return { c with command := ← list text levels node }
      | "shell" => return { c with shell := ← text levels node }
      | "workingDir" => return { c with workingDir := ← text levels node }
      | "readyCommand" => return { c with readyCommand := ← text levels node }
      | "imagePullPolicy" => return { c with imagePullPolicy := ← text levels node }
      | "env" => return { c with env := ← list value levels node }
      | "options" => return { c with options := ← list value levels node }
      | _ => return { c with conditions := ← list ParameterCondition.decoder levels node }

namespace Metadata

/-- Metadata of which nothing is known. -/
def blank : Metadata :=
  { name := "", aliases := [], description := "", longDescription := "", parameters := [],
    resources := [], secrets := [], outputs? := none, containers := [], sidecars := [] }

/-- Read the part that says what the step is called. -/
def headDecoder (m : Metadata) : Decoder Metadata :=
  record ⟨["name", "aliases", "description", "longDescription"], ["name"], true⟩ m
    fun levels m name node => do
      match name with
      | "name" => return { m with name := ← text levels node }
      | "aliases" => return { m with aliases := ← list Alias.decoder levels node }
      | "description" => return { m with description := ← text levels node }
      | _ => return { m with longDescription := ← text levels node }

/-- Read the inputs. -/
def inputsDecoder (m : Metadata) : Decoder Metadata :=
  record ⟨["params", "resources", "secrets"], [], true⟩ m fun levels m name node => do
    match name with
    | "params" => return { m with parameters := ← list Parameter.decoder levels node }
    | "resources" => return { m with resources := ← list ResourceInput.decoder levels node }
    | _ => return { m with secrets := ← list SecretInput.decoder levels node }

/-- Read the part that says what the step needs. -/
def specDecoder (m : Metadata) : Decoder Metadata :=
  record ⟨["inputs", "outputs", "containers", "sidecars"], [], true⟩ m fun levels m name node => do
    match name with
    | "inputs" => inputsDecoder m levels node
    | "outputs" => return { m with outputs? := ← optional value levels node }
    | "containers" => return { m with containers := ← list Container.decoder levels node }
    | _ => return { m with sidecars := ← list Container.decoder levels node }

/-- Read a metadata document. -/
def decoder : Decoder Metadata :=
  record ⟨["metadata", "spec"], ["metadata"], true⟩ blank fun levels m name node =>
    match name with
    | "metadata" => headDecoder m levels node
    | _ => specDecoder m levels node

/-- The first name that occurs twice, at its second place. -/
def firstRepeated? : (seen : List String) → List String → Option String
  | _, [] => none
  | seen, name :: rest =>
    if seen.contains name then some name else firstRepeated? (name :: seen) rest

/-- The metadata of a text; `document` names it in errors. -/
def ofText (document text : String) : Except ConfigError Metadata :=
  match decoder.readText text with
  | .error fault => .error (.notParsed document fault)
  | .ok m =>
    match firstRepeated? [] (m.parameters.map Parameter.name) with
    | some name => .error (.notParsed document (.duplicateParameter name))
    | none => .ok m

/-- How a metadata document is called in errors when it has no name. -/
def documentName : String := "step metadata"

/-- The metadata of a stream; `document` names it in errors. -/
def ofStream (document : String) (stream : ByteStream) : Except ConfigError Metadata :=
  match stream.readText with
  | .error failure => .error (.unreadable document failure)
  | .ok text => ofText document text

end Metadata

end PipelineConfig
