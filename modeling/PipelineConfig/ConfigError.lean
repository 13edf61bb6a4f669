import PipelineConfig.Fault
import PipelineConfig.File

/-!
# Errors of configuration

What can go wrong while documents are read and a step configuration is built from them, with the
message for each cause.
-/

namespace PipelineConfig

/-- Why there is no configuration. -/
inductive ConfigError
  /-- A document is not what it should be. -/
  | notParsed (document : String) (fault : Fault)
  /-- A document cannot be read. -/
  | unreadable (document : String) (failure : IoFailure)
  /-- A reference in the value of `key` names something that is no text. -/
  | referenceNotText (reference key : String) (found : Kind)
  /-- A text given for a parameter is not of its type. -/
  | wrongType (parameter expected : String)
  /-- The references of a text lead on and on. -/
  | endlessReferences (key : String) (passes : Nat)
  deriving DecidableEq, Repr

namespace ConfigError

private def typeMessage (subject expected found : String) : String :=
  "Type error for '" ++ subject ++ "': expected " ++ expected ++ ", found " ++ found

/-- The message of an error. -/
def message : ConfigError → String
  | notParsed document fault => fault.parseMessage document
  | unreadable document failure => "Failed to read " ++ document ++ ": " ++ failure.message
  | referenceNotText reference key found =>
    typeMessage (reference ++ " (referenced from '" ++ key ++ "')") "string" found.name
  | wrongType parameter expected => typeMessage parameter expected "string"
  | endlessReferences key passes =>
    "Interpolation of '" ++ key ++ "' did not finish after " ++ toString passes ++ " passes"

/-- The messages of what is behind an error. -/
def causes : ConfigError → List String
  | unreadable _ failure => [failure.message]
  | _ => []

end ConfigError

end PipelineConfig
