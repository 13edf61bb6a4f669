import PipelineConfig.ConfigError

/-!
# Errors of conditions

What can go wrong while a stage condition document is read or its conditions are evaluated, with
the message for each cause.
-/

namespace PipelineConfig

/-- How the parameters of a condition differ from what the condition takes. -/
inductive ShapeFault
  | count (required given : Nat)
  | namesDiffer (first second : String)
  | emptyComparison (name : String)
  | unsupported (name : String)
  | emptyText
  | notText
  | severalConfigKeys (given : Nat)
  deriving DecidableEq, Repr

/-- The wording of a difference. -/
def ShapeFault.message : ShapeFault → String
  | .count required given => toString required ++ " parameter(s) required, got " ++ toString given
  | .namesDiffer first second => "parameters must be '" ++ first ++ "' and '" ++ second ++ "'"
  | .emptyComparison name => "'" ++ name ++ "' is empty"
  | .unsupported name => "unsupported parameter '" ++ name ++ "'"
  | .emptyText => "empty parameter value"
  | .notText => "expected a string parameter, got an array"
  | .severalConfigKeys given =>
    "only one config key allowed per condition but " ++ toString given ++ " provided"

/-- Something that a condition reads is not of the type it needs. -/
inductive TypeFault
  | comparedNotText (key : String) (found : Kind)
  | patternNotText (key : String) (found : Kind)
  | notBoolean (text : String)
  | scriptsNotObject (file : String)
  deriving DecidableEq, Repr

/-- The wording of a type fault. -/
def TypeFault.message : TypeFault → String
  | .comparedNotText key found =>
    "config value of '" ++ key ++ "' to compare with is not a string but " ++ found.name
  | .patternNotText key found => "config value of '" ++ key ++ "' is not a string but " ++ found.name
  | .notBoolean text => "'" ++ text ++ "' is not a boolean"
  | .scriptsNotObject file => "'scripts' of " ++ file ++ " is not an object"

/-- Why a condition has no verdict. -/
inductive ConditionError
  /-- A document, or a file that a condition reads, is not what it should be. -/
  | notParsed (document : String) (fault : Fault)
  /-- The parameters are not those of the condition. -/
  | misshapen (step conditionRef : String) (fault : ShapeFault)
  /-- Something is not of the type that the condition needs. -/
  | wrongType (step conditionRef : String) (fault : TypeFault)
  /-- No condition has this name. -/
  | unknown (step conditionRef : String)
  /-- A file pattern cannot be expanded. -/
  | patternFailed (pattern : String) (failure : IoFailure)
  /-- A file cannot be read. -/
  | unreadable (path : String) (failure : IoFailure)
  /-- The step has no configuration. -/
  | noConfig (step : String) (cause : ConfigError)
  deriving DecidableEq, Repr

/-- The message of an error. -/
def ConditionError.message : ConditionError → String
  | .notParsed document fault => fault.parseMessage document
  | .misshapen step ref fault =>
    "Condition '" ++ ref ++ "' of step '" ++ step ++ "' is malformed: " ++ fault.message
  | .wrongType step ref fault =>
    "Condition '" ++ ref ++ "' of step '" ++ step ++ "': " ++ fault.message
  | .unknown step ref => "Unknown conditionRef '" ++ ref ++ "' for step '" ++ step ++ "'"
  | .patternFailed pattern failure =>
    "Failed to expand file pattern '" ++ pattern ++ "': " ++ failure.message
  | .unreadable path failure => "Failed to read " ++ path ++ ": " ++ failure.message
  | .noConfig step cause =>
    "Failed to resolve configuration of step '" ++ step ++ "': " ++ cause.message

/-- The messages of what is behind an error. -/
def ConditionError.causes : ConditionError → List String
  | .patternFailed _ failure => [failure.message]
  | .unreadable _ failure => [failure.message]
  | .noConfig _ cause => cause.message :: cause.causes
  | _ => []

end PipelineConfig
