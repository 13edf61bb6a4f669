import PipelineConfig.Condition.Registry
import PipelineConfig.Json.Reader

/-!
# The built-in conditions

Five conditions are always there: `config-equals` and `config-exists` look at the configuration of
the step, `file-exists` and `npm-script-exists` at files, and `is-active` at nothing but its own
parameter. Each first makes sure that its parameters have the form it takes, and only then looks.
-/

namespace PipelineConfig

/-! ### Looking a setting up -/

namespace Mapping

/-- The mapping under a name. -/
def section? (m : Mapping) (name : String) : Option Mapping :=
  (Assoc.get? m name).bind Value.asMapping?

/-- The setting of a step: the first that is not null of the entry itself, the entry among the
general settings, in the stage section and in the step section that have the name of the step. -/
def settingOf? (m : Mapping) (step key : String) : Option Value :=
  (m.nonNull? key)
    |>.or ((m.section? "general").bind (fun s => Mapping.nonNull? s key))
    |>.or (((m.section? "stages").bind (fun s => Mapping.section? s step)).bind
      (fun s => Mapping.nonNull? s key))
    |>.or (((m.section? "steps").bind (fun s => Mapping.section? s step)).bind
      (fun s => Mapping.nonNull? s key))

end Mapping

namespace Checks

/-! ### Settings -/

/-- A setting is a given text, or one of several. -/
def configEquals (c : ConditionCall) : Verdict :=
  match c.params with
  | [keyParam, compared] =>
    if keyParam.name ≠ "configKey" ∨ compared.name ≠ "contains" then
      c.shapeError (.namesDiffer "configKey" "contains")
    else do
      let key ← c.nonEmptyText keyParam.value
      if compared.value.isEmpty then c.shapeError (.emptyComparison "contains")
      else match c.config.settingOf? c.step key with
        | none => .ok false
        | some (.string s) =>
          match compared.value with
          | .text expected => .ok (s = expected)
          | .list candidates => .ok (candidates.contains s)
        | some other => c.typeError (.comparedNotText key other.kind)
  | _ => c.countError 2

/-- A setting is there, or a step has a section. -/
def configExists (c : ConditionCall) : Verdict :=
  match c.params with
  | [param] => do
    let name ← c.nonEmptyText param.value
    if param.name = "configKey" then .ok (c.config.settingOf? c.step name).isSome
    else if param.name = "stepName" then
      .ok ((c.config.section? "steps").bind (fun steps => Mapping.section? steps name)).isSome
    else c.shapeError (.unsupported param.name)
  | _ => c.countError 1

/-- The parameter says so itself. -/
def isActive (c : ConditionCall) : Verdict :=
  match c.params with
  | [param] =>
    if param.name ≠ "activation" then c.shapeError (.unsupported param.name)
    else do
      let s ← c.nonEmptyText param.value
      let word := Text.lowerAscii s
      if word = "true" then .ok true
      else if word = "false" then .ok false
      else c.typeError (.notBoolean s)
  | _ => c.countError 1

/-! ### Files -/

/-- The paths that match a pattern. -/
def expand (glob : Glob) (pattern : String) : Except ConditionError (List String) :=
  match glob pattern with
  | .ok paths => .ok paths
  | .error failure => .error (.patternFailed pattern failure)

/-- Some file matches a pattern. -/
def matchesFile (glob : Glob) (pattern : String) : Verdict := do
  let paths ← expand glob pattern
  .ok (!paths.isEmpty)

/-- Some file matches a pattern, which is given or is a setting. -/
def fileExists (c : ConditionCall) : Verdict :=
  match c.params with
  | [param] => do
    let s ← c.nonEmptyText param.value
    if param.name = "filePattern" then matchesFile c.glob s
    else if param.name = "filePatternFromConfig" then
      match c.config.settingOf? c.step s with
      | none => .ok false
      | some (.string pattern) => matchesFile c.glob pattern
      | some other => c.typeError (.patternNotText s other.kind)
    else c.shapeError (.unsupported param.name)
  | _ => c.countError 1

/-- The pattern of the files that declare scripts. -/
def packagePattern : String := "**/package.json"

/-- Whether a path leads through a folder of installed packages. -/
def isInstalled (path : String) : Bool :=
  (Text.splitOn '/' path).contains "node_modules"

/-- Whether one package file declares a script. A file without scripts declares none. -/
def packageDeclares (openFile : OpenFile) (typeError : TypeFault → ConditionError)
    (script path : String) : Verdict :=
  match openFile path with
  | .error failure => .error (.unreadable path failure)
  | .ok stream =>
    match stream.readText.toOption.bind Json.read? with
    | none => .error (.notParsed path .malformed)
    | some manifest =>
      match manifest.asObject?.bind (fun members => Assoc.get? members "scripts") with
      | none => .ok false
      | some (.object scripts) => .ok (Assoc.contains scripts script)
      | some _ => .error (typeError (.scriptsNotObject path))

/-- Whether one of some package files declares a script; those after it are not looked at. -/
def anyPackageDeclares (openFile : OpenFile) (typeError : TypeFault → ConditionError)
    (script : String) : List String → Verdict
  | [] => .ok false
  | path :: rest => do
    if ← packageDeclares openFile typeError script path then .ok true
    else anyPackageDeclares openFile typeError script rest

/-- Whether some package file outside of installed packages declares a script. -/
def declaresScript (glob : Glob) (openFile : OpenFile) (typeError : TypeFault → ConditionError)
    (script : String) : Verdict := do
  let paths ← expand glob packagePattern
  anyPackageDeclares openFile typeError script (paths.filter (fun p => !isInstalled p))

/-- Some package declares a script. -/
def npmScriptExists (c : ConditionCall) : Verdict :=
  match c.params with
  | [param] =>
    if param.name ≠ "npmScript" then c.shapeError (.unsupported param.name)
    else do
      let script ← c.nonEmptyText param.value
      declaresScript c.glob c.openFile (.wrongType c.step c.ref) script
  | _ => c.countError 1

end Checks

/-- The registry of the built-in conditions. -/
def Registry.builtin : Registry :=
  Registry.empty
    |>.register "config-equals" Checks.configEquals
    |>.register "config-exists" Checks.configExists
    |>.register "file-exists" Checks.fileExists
    |>.register "is-active" Checks.isActive
    |>.register "npm-script-exists" Checks.npmScriptExists

end PipelineConfig
