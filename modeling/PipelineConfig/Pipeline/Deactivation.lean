import PipelineConfig.Pipeline.Rules

/-!
# Why a step is not active

A step that is not active is so for one reason: its configuration says so under its own name, a
condition does not hold, none of its rules holds, or a rule against it holds. `deactivation?`
answers with that reason, or with none for an active step; there is one such function for the
conditions of a stage condition document and one for the steps of a pipeline definition.
-/

namespace PipelineConfig

/-- The reason why a step is not active. -/
inductive Deactivation
  | explicit
  | condition (ref : String)
  | noConditionMet
  /-- A rule of this kind against the step holds. -/
  | notActiveCondition (kind : String)
  deriving DecidableEq, Repr

/-- A reason why a step is not active, or none, or an error. -/
abbrev StepVerdict := Except ConditionError (Option Deactivation)

/-- The conditions of a step, one after the other: the first that does not hold is the reason. -/
def Registry.firstUnmet? (r : Registry) (step : String) (config : Mapping) (glob : Glob)
    (openFile : OpenFile) : List Condition → StepVerdict
  | [] => .ok none
  | condition :: rest => do
    if ← r.evaluate condition step config glob openFile then
      firstUnmet? r step config glob openFile rest
    else .ok (some (.condition condition.ref))

/-- Why a step with conditions is not active. What its configuration says under its own name is
final, and no condition is looked at then. -/
def Registry.deactivation? (r : Registry) (step : String) (conditions : List Condition)
    (config : Mapping) (glob : Glob) (openFile : OpenFile) : StepVerdict :=
  match Assoc.get? config step with
  | some (.bool false) => .ok (some .explicit)
  | some (.bool true) => .ok none
  | _ => r.firstUnmet? step config glob openFile conditions

namespace PipelineStep

/-- Why the rules for a step do not make it active. What its configuration says under its own name
replaces these rules. -/
def notMet? (s : PipelineStep) (c : RuleCall) : StepVerdict :=
  match Assoc.get? c.config s.name with
  | some (.bool true) => .ok none
  | some (.bool false) => .ok (some .explicit)
  | _ =>
    if s.conditions.isEmpty then .ok none
    else do
      match ← Rule.firstHolding? c s.conditions with
      | some _ => .ok none
      | none => .ok (some .noConditionMet)

/-- Why a step of a pipeline definition is not active. The rules against it are looked at in any
case. -/
def deactivation? (s : PipelineStep) (c : RuleCall) : StepVerdict := do
  let reason? ← s.notMet? c
  let against? ← Rule.firstHolding? c s.notActiveConditions
  .ok (reason?.or (against?.map (fun r => .notActiveCondition r.kind.name)))

end PipelineStep

end PipelineConfig
