import PipelineConfig.Condition.Document
import PipelineConfig.Text.Quoted

/-!
# Conditions by name

A `Registry` maps names to conditions. A condition sees a `ConditionCall`: the step, the
parameters, the configuration of the step, and ways to find and to open files. It answers whether
it holds, or why it cannot say.
-/

namespace PipelineConfig

/-- A way to expand a file pattern into the paths that match it. -/
abbrev Glob := String → Except IoFailure (List String)

/-- What a condition may look at. -/
structure ConditionCall where
  step : String
  ref : String
  params : List ConditionParam
  config : Mapping
  glob : Glob
  openFile : OpenFile

/-- A verdict, or the reason that there is none. -/
abbrev Verdict := Except ConditionError Bool

/-- A condition that can be evaluated. -/
abbrev ConditionHandler := ConditionCall → Verdict

namespace ConditionCall

/-- The error that the parameters are not those of the condition. -/
def shapeError {α : Type} (c : ConditionCall) (fault : ShapeFault) : Except ConditionError α :=
  .error (.misshapen c.step c.ref fault)

/-- The error that something has the wrong type. -/
def typeError {α : Type} (c : ConditionCall) (fault : TypeFault) : Except ConditionError α :=
  .error (.wrongType c.step c.ref fault)

/-- A text that is not empty. -/
def nonEmptyText (c : ConditionCall) : ParamValue → Except ConditionError String
  | .text s => if s.isEmpty then c.shapeError .emptyText else .ok s
  | .list _ => c.shapeError .notText

/-- The error that the number of parameters is wrong. -/
def countError {α : Type} (c : ConditionCall) (required : Nat) : Except ConditionError α :=
  c.shapeError (.count required c.params.length)

end ConditionCall

/-- Conditions by name. -/
structure Registry where
  handlers : List (String × ConditionHandler)

namespace Registry

/-- No conditions. -/
def empty : Registry := ⟨[]⟩

/-- Add a condition, or replace the one of that name. -/
def register (r : Registry) (name : String) (handler : ConditionHandler) : Registry :=
  ⟨Assoc.insert r.handlers name handler⟩

/-- Whether a condition has this name. -/
def contains (r : Registry) (name : String) : Bool :=
  Assoc.contains r.handlers name

/-- The names of all conditions, in order. -/
def names (r : Registry) : List String :=
  Assoc.keys r.handlers

/-- How a registry is shown: by the names of its conditions. -/
def shown (r : Registry) : String :=
  "ConditionRegistry \x7b conditions: " ++ Text.quotedList r.names ++ " \x7d"

/-- Evaluate a condition of a step. -/
def evaluate (r : Registry) (condition : Condition) (step : String) (config : Mapping)
    (glob : Glob) (openFile : OpenFile) : Verdict :=
  match Assoc.get? r.handlers condition.ref with
  | none => .error (.unknown step condition.ref)
  | some handler => handler ⟨step, condition.ref, condition.params, config, glob, openFile⟩

end Registry

end PipelineConfig
