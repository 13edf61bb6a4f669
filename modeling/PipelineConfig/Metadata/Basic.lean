import PipelineConfig.ConfigError
import PipelineConfig.Text.Blank
import PipelineConfig.Width

/-!
# Step metadata

Every step comes with a metadata document that describes its inputs. What matters here is the list
of its parameters: the scopes of a parameter say which places may set it, its aliases give older
names that still count, its conditions tie it to the value of another parameter, and its resource
references say where a secret value may be found.
-/

namespace PipelineConfig

/-- An older name of a parameter; `a/b` means the entry `b` of the mapping `a`. -/
structure Alias where
  name : String
  deprecated : Bool
  deriving DecidableEq, Repr, Inhabited

/-- A pointer from a parameter to an outside source of its value. -/
structure ResourceReference where
  name : String
  type : String
  param? : Option String
  /-- Path templates, tried in order. -/
  paths : List String
  /-- What to look for when the configuration names nothing. -/
  default? : Option String
  aliases : List Alias
  deriving DecidableEq, Repr, Inhabited

/-- The value that another parameter has to have. -/
structure Dependency where
  name : String
  value : String
  deriving DecidableEq, Repr, Inhabited

/-- A condition under which a parameter or a container is used. -/
structure ParameterCondition where
  conditionRef : String
  params : List Dependency
  deriving DecidableEq, Repr, Inhabited

/-- A place that may set a parameter. -/
inductive Scope
  | general | steps | stages | parameters | env
  deriving DecidableEq, Repr

/-- The word for a scope in documents. -/
def Scope.name : Scope → String
  | .general => "GENERAL"
  | .steps => "STEPS"
  | .stages => "STAGES"
  | .parameters => "PARAMETERS"
  | .env => "ENV"

/-- All scopes. -/
def Scope.all : List Scope := [.general, .steps, .stages, .parameters, .env]

/-- The type of a parameter. Types beyond the first four only matter to who reads the document. -/
inductive ParameterType
  | string | bool | int | stringList
  | other (name : String)
  deriving DecidableEq, Repr

/-- The spelling of a type in documents. -/
def ParameterType.name : ParameterType → String
  | .string => "string"
  | .bool => "bool"
  | .int => "int"
  | .stringList => "[]string"
  | .other name => name

/-- The type with a spelling. -/
def ParameterType.ofName (name : String) : ParameterType :=
  if name = "string" then .string
  else if name = "bool" then .bool
  else if name = "int" then .int
  else if name = "[]string" then .stringList
  else .other name

/-- A parameter of a step. -/
structure Parameter where
  name : String
  description : String
  longDescription : String
  references : List ResourceReference
  /-- Without any scope, only parameter JSON and flags can be meant to set the parameter. -/
  scopes : List Scope
  type : ParameterType
  mandatory : Bool
  default? : Option Value
  possibleValues? : Option (List Value)
  aliases : List Alias
  conditions : List ParameterCondition
  secret : Bool

/-- A secret that the surroundings of a step provide. -/
structure SecretInput where
  name : String
  description : String
  type : String
  aliases : List Alias

/-- A resource that the surroundings of a step provide. -/
structure ResourceInput where
  name : String
  description : String
  type : String
  params : List Value
  conditions : List ParameterCondition

/-- A container that a step runs in, or beside. -/
structure Container where
  name : String
  image : String
  command : List String
  shell : String
  workingDir : String
  readyCommand : String
  imagePullPolicy : String
  env : List Value
  options : List Value
  conditions : List ParameterCondition

/-- The metadata of a step. -/
structure Metadata where
  name : String
  aliases : List Alias
  description : String
  longDescription : String
  parameters : List Parameter
  resources : List ResourceInput
  secrets : List SecretInput
  outputs? : Option Value
  containers : List Container
  sidecars : List Container

/-! ### Parameters -/

namespace Parameter

/-- The first reference of a type. -/
def reference? (p : Parameter) (type : String) : Option ResourceReference :=
  p.references.find? (fun r => r.type = type)

/-- The first value that the parameter depends on. -/
def dependency? (p : Parameter) : Option Dependency :=
  p.conditions.head?.bind (fun c => c.params.head?)

/-- Everything that the parameter depends on. -/
def dependencies (p : Parameter) : List Dependency :=
  p.conditions.flatMap ParameterCondition.params

end Parameter

/-! ### Resource references -/

/-- The reference type of secrets of the key-value store. -/
def vaultSecret : String := "vaultSecret"

/-- The reference type of secrets of the key-value store that are put into files. -/
def vaultSecretFile : String := "vaultSecretFile"

/-- The reference type of secrets of the trust service. -/
def trustEngineSecret : String := "trustengineSecret"

namespace Metadata

/-- Whether some parameter has a reference of a type. -/
def hasReference (m : Metadata) (type : String) : Bool :=
  m.parameters.any (fun p => (p.reference? type).isSome)

/-- The parameter with a name. -/
def parameter? (m : Metadata) (name : String) : Option Parameter :=
  m.parameters.find? (fun p => p.name = name)

/-! ### Defaults -/

/-- Put a default under the mapping that a condition names, unless something else is there. -/
def nestDefault (parameter : String) (default : Value) (defaults : Mapping) (d : Dependency) :
    Mapping :=
  match Assoc.get? defaults d.value with
  | none => Assoc.insert defaults d.value (.mapping [(parameter, default)])
  | some (.mapping nested) =>
    Assoc.insert defaults d.value (.mapping (Assoc.insert nested parameter default))
  | some _ => defaults

/-- Add the default of a parameter. The default of a conditional parameter goes under the mapping
of each value that it depends on. -/
def addDefault (defaults : Mapping) (p : Parameter) : Mapping :=
  match p.default? with
  | none => defaults
  | some default =>
    if p.conditions.isEmpty then Assoc.insert defaults p.name default
    else p.dependencies.foldl (nestDefault p.name default) defaults

/-- The configuration that the defaults of the parameters make. -/
def defaults (m : Metadata) : Mapping :=
  m.parameters.foldl addDefault []

end Metadata

/-! ### Values from texts -/

/-- A whole number of 64 bits in decimal digits with an optional sign. -/
def readInt64? (cs : List Char) : Option Int64 :=
  let (negative, ds) := match cs with
    | '-' :: r => (true, r)
    | '+' :: r => (false, r)
    | r => (false, r)
  if ds = [] || !ds.all Char.isDigit then none
  else
    let n : Int := ds.foldl (fun n c => 10 * n + (c.toNat - '0'.toNat)) 0
    let n := if negative then -n else n
    if Width.holdsSigned 64 n then some (Int64.ofInt n) else none

/-- Read a text as a value of a type; `name` is the parameter that it is for. -/
def ParameterType.coerce (type : ParameterType) (name raw : String) : Except ConfigError Value :=
  match type with
  | .bool =>
    let word := Text.lowerAscii raw
    if word = "true" then .ok (.bool true)
    else if word = "false" then .ok (.bool false)
    else .error (.wrongType name "bool")
  | .int =>
    match readInt64? (Text.trimChars raw.toList) with
    | some n => .ok (.int n)
    | none => .error (.wrongType name "int")
  | .stringList =>
    let items := (Text.splitOn ',' raw).map Text.trim
    .ok (.sequence ((items.filter (fun s => !s.isEmpty)).map Value.string))
  | .string | .other _ => .ok (.string raw)

/-- Read texts given for parameters as values of their types; unknown parameters take texts. Of two
texts for one parameter the later one counts. -/
def Metadata.flagValues (m : Metadata) (flags : List (String × String)) :
    Except ConfigError Mapping := do
  let pairs ← flags.mapM (fun (name, raw) =>
    match m.parameter? name with
    | some p => (p.type.coerce name raw).map (fun v => (name, v))
    | none => .ok (name, Value.string raw))
  .ok (Assoc.ofList pairs)

end PipelineConfig
