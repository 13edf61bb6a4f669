import PipelineConfig.Pipeline.RunConfig
import PipelineConfig.Secret.Resolution

/-!
# Lines for people

What is said to people is one line for each thing: a marker, then what it is about. The lines are
plain text.
-/

namespace PipelineConfig

/-- What a line begins with. -/
inductive Marker
  | check | cross | info | warning | key
  deriving DecidableEq, Repr

/-- The picture of a marker, with the space that it takes. -/
def Marker.text : Marker → String
  | .check => "✅ "
  | .cross => "❌ "
  | .info => "ℹ️  "
  | .warning => "⚠️  "
  | .key => "🔑 "

namespace Report

/-- A line. -/
def line (marker : Marker) (text : String) : String :=
  marker.text ++ " " ++ text

/-- The wording of a reason why a step is not active. -/
def reasonText : Deactivation → String
  | .explicit => "deactivated in configuration"
  | .condition ref => "condition " ++ ref ++ " not met"
  | .noConditionMet => "no activation condition met"
  | .notActiveCondition condition => "not-active condition " ++ condition ++ " met"

/-- The line of a step. -/
def stepLine (stage step : String) (active : Bool) (reason? : Option Deactivation) : String :=
  let place := stage ++ " / " ++ step
  if active then line .check (place ++ " active")
  else
    let why := match reason? with
      | some reason => reasonText reason
      | none => "inactive"
    line .cross (place ++ " inactive (" ++ why ++ ")")

/-- The lines of all steps, in order. -/
def runLines (r : RunConfig) : List String :=
  r.runSteps.flatMap (fun (stage, steps) =>
    steps.map (fun (step, active) => stepLine stage step active (r.reason? stage step)))

/-- Where a secret came from. -/
def sourceText : SecretSource → String
  | .kv path => "KV path " ++ path
  | .kvFile path file => "KV path " ++ path ++ " into " ++ file
  | .trustService system => "trust engine system " ++ system

/-- The line of a parameter that got a secret. -/
def secretLine (s : ResolvedSecret) : String :=
  line .key (s.parameter ++ " from " ++ sourceText s.source)

end Report

end PipelineConfig
