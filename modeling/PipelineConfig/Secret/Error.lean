import PipelineConfig.ConfigError
import PipelineConfig.Http.Message

/-!
# Errors of secrets

What can go wrong while secrets are looked up, with the message for each cause. A secret itself is
never part of a message.
-/

namespace PipelineConfig

/-- Why a key-value store has no answer. -/
inductive StoreFault
  | noResponse (failure : Http.Failure)
  | refused (status : Http.Status) (content : String)
  | undecodable
  /-- Nothing is known of the engine that serves the path. -/
  | noMount
  | badMount
  | badVersion (text : String)
  | unsupportedVersion (version : Nat)
  | noData
  | dataNotObject
  | other (message : String)
  deriving DecidableEq, Repr

/-- The wording of a fault of a store. -/
def StoreFault.message : StoreFault → String
  | .noResponse failure => failure.message
  | .refused status content => "HTTP " ++ Http.Status.text status ++ ": " ++ Text.trim content
  | .undecodable => "invalid response: " ++ Http.Failure.notDecoded.message
  | .noMount => "failed to get version and engine mount point"
  | .badMount => "invalid mount info"
  | .badVersion text => "invalid KV engine version '" ++ text ++ "'"
  | .unsupportedVersion version =>
    "KV engine version " ++ toString version ++ " is not supported"
  | .noData => "missing 'data' field in response"
  | .dataNotObject => "expected 'data' to be an object"
  | .other message => message

/-- Why a request to the trust service has no answer. -/
inductive IssueFault
  | noResponse (failure : Http.Failure)
  | refused (status : Http.Status)
  | undecodable
  | other (message : String)
  deriving DecidableEq, Repr

/-- The wording of a fault of the trust service. -/
def IssueFault.message : IssueFault → String
  | .noResponse failure => failure.message
  | .refused status => "unexpected status " ++ Http.Status.text status
  | .undecodable => "invalid response: " ++ Http.Failure.notDecoded.message
  | .other message => message

/-- Why a secret could not be looked up. -/
inductive SecretError
  /-- The key-value store has no answer. -/
  | store (path : String) (fault : StoreFault)
  /-- The trust service has no answer. -/
  | issuer (url : String) (fault : IssueFault)
  /-- Nobody wants to know any more. -/
  | cancelled
  /-- The file for a secret cannot be written. -/
  | notWritten (parameter : String) (failure : IoFailure)
  /-- The path to look at cannot be told. -/
  | noPath (cause : ConfigError)
  deriving DecidableEq, Repr

namespace SecretError

/-- The message that a file cannot be written, without the reason. -/
def notWrittenMessage (parameter : String) : String :=
  "Failed to write secret file for '" ++ parameter ++ "'"

/-- The message of an error. -/
def message : SecretError → String
  | store path fault => "Failed to read secret at '" ++ path ++ "': " ++ fault.message
  | issuer url fault => "Request to " ++ url ++ " failed: " ++ fault.message
  | cancelled => "Secret resolution was cancelled"
  | notWritten parameter failure => notWrittenMessage parameter ++ ": " ++ failure.message
  | noPath cause => "Failed to build secret path: " ++ cause.message

/-- The messages of what is behind an error. -/
def causes : SecretError → List String
  | notWritten _ failure => [failure.message]
  | noPath cause => cause.message :: cause.causes
  | _ => []

end SecretError

end PipelineConfig
