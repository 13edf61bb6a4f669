import PipelineConfig.Condition.Checks
import PipelineConfig.Pipeline.Definition
import PipelineConfig.Value.Equality

/-!
# When a rule holds

A rule looks at the configuration of the step, at files, or at the pipeline environment, a
directory of files in which earlier steps leave values: a text is the content of the file of its
name, any other value the JSON in the file with `.json` behind the name. A file that is missing or
empty means that there is no value, and so does a file of JSON that is none.
-/

namespace PipelineConfig

/-- What a rule may look at. -/
structure RuleCall where
  step : String
  config : Mapping
  glob : Glob
  openFile : OpenFile
  /-- The directory that holds the pipeline environment. -/
  root : String

/-- Whether a path of names leads somewhere; only at its end there may be null. -/
def Mapping.hasPath (m : Mapping) : List String → Bool
  | [] => false
  | [name] => Assoc.contains m name
  | name :: rest =>
    match Assoc.get? m name with
    | some (.mapping inner) => hasPath inner rest
    | _ => false

namespace RuleCall

/-- The directory of the pipeline environment when none is given. -/
def defaultRoot : String := ".pipeline"

/-- The file of an entry of the pipeline environment. -/
def entryPath (c : RuleCall) (name : String) : String :=
  Text.stripEnd '/' c.root ++ "/commonPipelineEnvironment/" ++ name

/-- The content of a file; none when there is no such file, or when it is empty. -/
def content? (c : RuleCall) (path : String) : Except ConditionError (Option String) :=
  match c.openFile path with
  | .error failure =>
    if failure.cause = .notFound then .ok none else .error (.unreadable path failure)
  | .ok stream =>
    match stream.readText with
    | .error failure => .error (.unreadable path failure)
    | .ok s => .ok (if s.isEmpty then none else some s)

/-- The text that an entry of the pipeline environment holds. -/
def entryText? (c : RuleCall) (name : String) : Except ConditionError (Option Value) := do
  let s? ← c.content? (c.entryPath name)
  .ok (s?.map Value.string)

/-- The value that an entry of the pipeline environment holds as JSON. -/
def entryJson? (c : RuleCall) (name : String) : Except ConditionError (Option Value) := do
  let s? ← c.content? (c.entryPath name ++ ".json")
  .ok ((s?.bind Json.read?).map Value.ofJson)

/-- Whether an entry of the pipeline environment holds a value. Texts are compared with texts. -/
def entryIs (c : RuleCall) (name : String) (expected : Value) : Verdict := do
  let found? ← match expected with
    | .string _ => c.entryText? name
    | _ => c.entryJson? name
  .ok (match found? with
    | some found => found.same expected
    | none => false)

/-- Whether one of some entries holds its value; those after it are not looked at. -/
def anyEntryIs (c : RuleCall) : List (String × Value) → Verdict
  | [] => .ok false
  | (name, expected) :: rest => do
    if ← c.entryIs name expected then .ok true else anyEntryIs c rest

/-- Whether an entry of the pipeline environment holds anything. -/
def isFilled (c : RuleCall) (name : String) : Verdict := do
  if (← c.entryText? name).isSome then .ok true
  else .ok (← c.entryJson? name).isSome

end RuleCall

namespace Rule

/-- Whether a setting has one of the values that count. -/
def configHolds (settings : List (String × List Value)) (c : RuleCall) : Verdict :=
  match settings with
  | [] => .ok false
  | [(name, values)] =>
    match Assoc.get? c.config name with
    | some v => .ok (values.any (fun w => w.same v))
    | none => .ok false
  | _ => .error (.misshapen c.step "config" (.severalConfigKeys settings.length))

/-- Whether a file matches the pattern that a setting holds. -/
def settingPatternHolds (name : String) (c : RuleCall) : Verdict :=
  match (Assoc.get? c.config name).bind Value.scalarText? with
  | some pattern => if pattern.isEmpty then .ok false else Checks.matchesFile c.glob pattern
  | none => .ok false

/-- Whether the rule holds: the first setting that is there is looked at, and those behind it are
not. A rule without any holds unless it is inactive. -/
def holds (r : Rule) (c : RuleCall) : Verdict :=
  match r.config? with
  | some settings => configHolds settings c
  | none =>
    if !r.configKey.isEmpty then .ok (c.config.hasPath (Text.splitOn '/' r.configKey))
    else if !r.filePattern.isEmpty then Checks.matchesFile c.glob r.filePattern
    else if !r.filePatternFromConfig.isEmpty then settingPatternHolds r.filePatternFromConfig c
    else if !r.npmScript.isEmpty then
      Checks.declaresScript c.glob c.openFile (.wrongType c.step "npmScript") r.npmScript
    else match r.environment? with
      | some entries => c.anyEntryIs entries
      | none =>
        if !r.environmentFilled.isEmpty then c.isFilled r.environmentFilled
        else .ok (!r.inactive)

/-- The first of some rules that holds; those after it are not looked at. -/
def firstHolding? (c : RuleCall) : List Rule → Except ConditionError (Option Rule)
  | [] => .ok none
  | r :: rest => do
    if ← r.holds c then .ok (some r) else firstHolding? c rest

end Rule

end PipelineConfig
