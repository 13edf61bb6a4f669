import PipelineConfig.Proofs.Interpolation
import PipelineConfig.Proofs.Merge
import PipelineConfig.Resolution.StepConfig

/-!
# Precedence, key by key

The configuration of a step is a merge of many sources
(`PipelineConfig.Request.sources`). This file says what comes out of it *under one key*, without any
merge of whole mappings: list the places that may set a value, lowest precedence first
(`PipelineConfig.Request.places`), ask each for its value under the key
(`PipelineConfig.Request.valueAt?`), and make one value of the pile of answers
(`PipelineConfig.Value.layered?`).

Two passes follow the merge, and neither disturbs that value as long as it is not null:

* conditional parameters fill in only what has no value (`PipelineConfig.Mapping.FilledIn`,
  `PipelineConfig.get?_fillConditionals_of_nonNull`);
* the resolution of references rewrites texts, and each on its own
  (`PipelineConfig.Template.get?_interpolateMapping`).

So the value of the pile is the value of the configuration, with the references resolved if it is a
text: `PipelineConfig.Request.config_of_layered`.
-/

namespace PipelineConfig

/-- A place from which the configuration of a step may take values. -/
inductive SettingPlace
  /-- The defaults of the parameters. -/
  | defaults
  /-- The general settings of a document. -/
  | general (d : ConfigDocument)
  /-- The section of a document for the step. -/
  | step (d : ConfigDocument)
  /-- The section of a document for the stage. -/
  | stage (d : ConfigDocument)
  /-- The environment variables. -/
  | environment
  /-- The parameters that are given as JSON. -/
  | json
  /-- The flags. -/
  | flags

namespace Request

/-! ### The places, and what each holds under a key -/

/-- The value that a section holds under a key once its aliases are applied, if the filter of the
section admits the key. -/
def sectionValue? (r : Request) (allow : List String) (m? : Option Mapping) (key : String) :
    Option Value :=
  if Mapping.admits allow key then m?.bind (fun m => Assoc.get? (r.aliased allow m) key) else none

/-- The value that an environment variable gives a parameter: only parameters that may be set at all
have one, and an empty variable gives none. -/
def variableValue? (r : Request) (env : Environment) (key : String) : Option Value :=
  if key ∈ r.filters.all then
    ((env (envPrefix ++ key)).filter (fun text => !text.isEmpty)).map .string
  else none

/-- The value that a place holds under a key. -/
def valueAt? (r : Request) (env : Environment) (key : String) : SettingPlace → Option Value
  | .defaults => Assoc.get? r.defaults key
  | .general d => r.sectionValue? r.filters.general (some d.general) key
  | .step d => r.sectionValue? r.filters.steps (d.stepSection? r.step) key
  | .stage d => r.sectionValue? r.filters.stages (d.stageSection? r.stage) key
  | .environment => r.variableValue? env key
  | .json => r.sectionValue? r.filters.parameters r.jsonParameters? key
  | .flags => if Mapping.admits r.filters.parameters key then Assoc.get? r.flags key else none

/-- **All places, lowest precedence first**: the defaults of the parameters; of each default
document, and then of each custom default document unless these are ignored, the general settings
and the section of the step; of the project configuration the general settings, the section of the
step and the section of the stage; the environment; JSON; flags. -/
def places (r : Request) (ds : DocumentSet) : List SettingPlace :=
  [.defaults]
    ++ (ds.defaults ++ if r.ignoreCustomDefaults then [] else ds.customDefaults).flatMap
      (fun d => [.general d, .step d])
    ++ [.general ds.project, .step ds.project, .stage ds.project, .environment, .json, .flags]

/-- The values that the places hold under a key, lowest precedence first. -/
def valuesAt (r : Request) (ds : DocumentSet) (env : Environment) (key : String) : List Value :=
  (r.places ds).filterMap (r.valueAt? env key)

/-! ### The sources, read at a key -/

variable (r : Request) (env : Environment) (key : String)

theorem get?_source (allow : List String) (m : Mapping) :
    Assoc.get? (r.source allow m) key = r.sectionValue? allow (some m) key :=
  Mapping.get?_keep (r.aliased allow m) allow key

/-- Names that bring their values along, read at one of them. -/
theorem get?_filterMap_name {α : Type} (f : String → Option α) (names : List String) :
    Assoc.get? (names.filterMap (fun name => (f name).map (fun v => (name, v)))) key
      = if key ∈ names then f key else none := by
  induction names with
  | nil => rfl
  | cons name names ih =>
    rw [List.filterMap_cons]
    by_cases hk : key = name
    · subst hk
      rcases hf : f key with _ | v
      · simp [ih, hf]
      · simp [Assoc.get?_cons]
    · rcases hf : f name with _ | v
      · simp [ih, hk]
      · simp [Assoc.get?_cons, ih, hk, Ne.symm hk]

theorem envSource_eq :
    r.envSource env = Assoc.ofList (r.filters.all.filterMap (fun name =>
      (((env (envPrefix ++ name)).filter (fun text => !text.isEmpty)).map Value.string).map
        (fun v => (name, v)))) := by
  rw [envSource]
  congr 2
  funext name
  rcases env (envPrefix ++ name) with _ | v
  · rfl
  · by_cases hv : v.isEmpty = true
    · rw [Option.filter_some_neg (by simp [hv])]
      simp [hv]
    · rw [Option.filter_some_pos (by simp [hv])]
      simp [hv]

theorem get?_keep_envSource :
    Assoc.get? (Mapping.keep (r.envSource env) r.filters.all) key = r.variableValue? env key := by
  rw [Mapping.get?_keep, envSource_eq, Assoc.get?_ofList, Assoc.last?, ← List.filterMap_reverse,
    get?_filterMap_name, variableValue?]
  by_cases hk : key ∈ r.filters.all <;> simp [Mapping.admits, hk]

/-! ### The places and the sources

A place is one source, or none where a document has no section; so the two lists do not match item
by item, but what they hold under a key does. -/

theorem filterMap_cons_toList {α β : Type} (f : α → Option β) (x : α) (xs : List α) :
    (x :: xs).filterMap f = (f x).toList ++ xs.filterMap f := by
  rw [List.filterMap_cons]
  cases f x <;> rfl

/-- A section that may be missing is a source that may be missing. -/
theorem filterMap_source (allow : List String) (m? : Option Mapping) :
    (m?.map (r.source allow)).toList.filterMap (fun m => Assoc.get? m key)
      = (r.sectionValue? allow m? key).toList := by
  rcases m? with _ | m
  · simp [sectionValue?]
  · rw [Option.map_some, Option.toList_some, filterMap_cons_toList, get?_source]
    simp

theorem filterMap_defaultSources (d : ConfigDocument) :
    (r.defaultSources d).filterMap (fun m => Assoc.get? m key)
      = List.filterMap (r.valueAt? env key) [.general d, .step d] := by
  simp only [defaultSources, filterMap_cons_toList, filterMap_source, get?_source, valueAt?,
    List.filterMap_nil, List.append_nil]

theorem filterMap_projectSources (d : ConfigDocument) :
    (r.projectSources d).filterMap (fun m => Assoc.get? m key)
      = List.filterMap (r.valueAt? env key) [.general d, .step d, .stage d] := by
  simp only [projectSources, List.filterMap_append, filterMap_cons_toList, filterMap_source,
    get?_source, valueAt?, List.filterMap_nil, List.append_nil, List.append_assoc]

/-- **The sources hold what the places hold**: read at a key, the same values in the same order. -/
theorem filterMap_sources (ds : DocumentSet) :
    (r.sources ds env).filterMap (fun m => Assoc.get? m key) = r.valuesAt ds env key := by
  have hplaces : [SettingPlace.general ds.project, .step ds.project, .stage ds.project,
      .environment, .json, .flags]
      = [SettingPlace.general ds.project, .step ds.project, .stage ds.project]
        ++ ([.environment] ++ [.json] ++ [.flags]) := rfl
  rw [valuesAt, places, hplaces, sources, defaultDocuments]
  simp only [List.filterMap_append, List.filterMap_flatMap, filterMap_defaultSources r env,
    filterMap_projectSources r env, filterMap_source, filterMap_cons_toList, List.filterMap_nil,
    List.append_nil, get?_keep_envSource, Mapping.get?_keep r.flags, valueAt?, List.append_assoc]

/-- **What is mixed under a key** is what the pile of the values there makes. -/
theorem get?_mixed (ds : DocumentSet) :
    Assoc.get? (r.mixed ds env) key = Value.layered? (r.valuesAt ds env key) := by
  rw [mixed, Mapping.get?_foldl_merge, filterMap_sources]

end Request

/-! ### What the later passes leave alone -/

theorem Mapping.nonNull?_eq_some_iff {m : Mapping} {key : String} {v : Value} :
    m.nonNull? key = some v ↔ Assoc.get? m key = some v ∧ v.isNull = false := by
  rw [nonNull?]
  rcases Assoc.get? m key with _ | w
  · simp
  · by_cases hw : w.isNull = true
    · simp only [if_pos hw, Option.some.injEq, reduceCtorEq, false_iff]
      rintro ⟨rfl, hv⟩
      rw [hw] at hv
      cases hv
    · simp only [if_neg hw, Option.some.injEq, iff_self_and]
      rintro rfl
      exact Bool.eq_false_iff.mpr hw

/-- **A name is filled in**, if anything is done at all: the mapping stays as it is, or a name that
has no value in it gets one. -/
def Mapping.FilledIn (name : String) (m m' : Mapping) : Prop :=
  m' = m ∨ m.nonNull? name = none ∧ ∃ v, m' = Assoc.insert m name v

namespace Mapping.FilledIn

variable {name key : String} {m m' : Mapping} {v : Value} (h : FilledIn name m m')
include h

theorem get?_of_ne (hkey : key ≠ name) : Assoc.get? m' key = Assoc.get? m key := by
  obtain rfl | ⟨-, v, rfl⟩ := h
  · rfl
  · rw [Assoc.get?_insert, if_neg (Ne.symm hkey)]

/-- Every value stays. -/
theorem get?_of_nonNull (hv : Assoc.get? m key = some v) (hnull : v.isNull = false) :
    Assoc.get? m' key = some v := by
  by_cases hkey : key = name
  · subst hkey
    obtain rfl | ⟨hunset, -⟩ := h
    · exact hv
    · rw [Mapping.nonNull?_eq_some_iff.mpr ⟨hv, hnull⟩] at hunset
      cases hunset
  · rw [h.get?_of_ne hkey, hv]

theorem mem_keys (hkey : key ∈ Assoc.keys m') : key ∈ Assoc.keys m ∨ key = name := by
  obtain rfl | ⟨-, v, rfl⟩ := h
  · exact Or.inl hkey
  · exact (Assoc.mem_keys_insert.mp hkey).symm

theorem sorted (hm : Assoc.Sorted m) : Assoc.Sorted m' := by
  obtain rfl | ⟨-, v, rfl⟩ := h
  · exact hm
  · exact hm.insert name v

end Mapping.FilledIn

/-- A conditional parameter is filled in under its own name. -/
theorem Parameter.filledIn_fillConditional (p : Parameter) (m : Mapping) :
    Mapping.FilledIn p.name m (fillConditional m p) := by
  rw [fillConditional]
  rcases p.dependency? with _ | d
  · exact Or.inl rfl
  rcases hunset : m.nonNull? p.name with _ | v
  · by_cases hmet : m.string? d.name = some d.value
    · simp only [if_pos hmet]
      rcases p.conditionalValue? d m with _ | v
      · exact Or.inl rfl
      · exact Or.inr ⟨hunset, v, rfl⟩
    · exact Or.inl (if_neg hmet)
  · exact Or.inl rfl

/-- **Conditional parameters fill in what is missing** and leave every other value alone. -/
theorem get?_fillConditionals_of_nonNull {m : Mapping} {key : String} {v : Value}
    (h : Assoc.get? m key = some v) (hv : v.isNull = false) (parameters : List Parameter) :
    Assoc.get? (fillConditionals parameters m) key = some v := by
  induction parameters generalizing m with
  | nil => exact h
  | cons p rest ih => exact ih ((p.filledIn_fillConditional m).get?_of_nonNull h hv)

/-! ### The configuration -/

namespace Request

/-- There is a configuration if the references in what is mixed and filled in can be resolved. -/
theorem stepConfig_eq_ok_iff {r : Request} {ds : DocumentSet} {env : Environment} {s : StepConfig} :
    r.stepConfig ds env = .ok s ↔
      ∃ config, Template.interpolateMapping (fillConditionals r.parameters (r.mixed ds env))
        = .ok config ∧ s = ⟨config, r.hooks ds⟩ := by
  rw [stepConfig]
  rcases Template.interpolateMapping (fillConditionals r.parameters (r.mixed ds env)) with e | config
  · simp [bind, Except.bind]
  · simp [bind, Except.bind, eq_comm]

/-- **Precedence**: what is mixed under a key is what the pile of the values there makes, and unless
that is null it is the value of the configuration – a text with its references resolved, anything
else as it is. -/
theorem config_of_layered (r : Request) (ds : DocumentSet) (c : Context) (key : String) :
    Assoc.get? (r.mixed ds c.env) key = Value.layered? (r.valuesAt ds c.env key) ∧
    ∀ s v, (r.resolve ds c).1 = .ok s →
      Value.layered? (r.valuesAt ds c.env key) = some v → v.isNull = false →
      (∀ text, v = .string text → ∃ resolved,
        Template.interpolate key text (fillConditionals r.parameters (r.mixed ds c.env))
          = .ok resolved ∧ s.get? key = some (.string resolved)) ∧
      ((∀ text, v = .string text → Template.references text = []) → s.get? key = some v) := by
  have hmixed := r.get?_mixed c.env key ds
  refine ⟨hmixed, fun s v hs hv hnull => ?_⟩
  have hfilled := get?_fillConditionals_of_nonNull (hmixed.trans hv) hnull r.parameters
  obtain ⟨w, hw, hget⟩ : ∃ w, Template.resolveValue key
      (fillConditionals r.parameters (r.mixed ds c.env)) v = .ok w ∧ s.get? key = some w := by
    have hs' : r.stepConfig ds c.env = .ok s := hs
    rw [stepConfig] at hs'
    rcases hconfig : Template.interpolateMapping
        (fillConditionals r.parameters (r.mixed ds c.env)) with e | config
    · rw [hconfig] at hs'
      cases hs'
    · rw [hconfig] at hs'
      cases hs'
      exact Template.get?_interpolateMapping hconfig hfilled
  constructor
  · rintro text rfl
    obtain ⟨resolved, hresolved, rfl⟩ := map_eq_ok_iff.mp hw
    exact ⟨resolved, hresolved, hget⟩
  · intro htext
    rw [Template.resolveValue_of_references_nil htext] at hw
    cases hw
    exact hget

/-- A text in the step section of the defaults cuts off the mapping below it; the two mappings of
the project configuration above it are merged. -/
theorem config_of_layered_cut_off :
    let defaults : ConfigDocument := { ConfigDocument.empty with
      general := [("tool", .mapping [("depth", .bool true)])]
      steps := [("scan", [("tool", .string "none")])] }
    let project : ConfigDocument := { ConfigDocument.empty with
      general := [("tool", .mapping [("name", .string "mvn")])]
      steps := [("scan", [("tool", .mapping [("goal", .string "$(x)")])])] }
    let ds : DocumentSet := ⟨project, [defaults], []⟩
    let c : Context := ⟨fun _ => none, 0, []⟩
    let v := Value.mapping [("goal", .string "$(x)"), ("name", .string "mvn")]
    ((Request.bare "Build" "scan").resolve ds c).1 = .ok ⟨[("tool", v)], []⟩ ∧
    Value.layered? ((Request.bare "Build" "scan").valuesAt ds c.env "tool") = some v ∧
    StepConfig.get? ⟨[("tool", v)], []⟩ "tool" = some v := by
  intro defaults project ds c v
  have hs : ((Request.bare "Build" "scan").resolve ds c).1 = .ok ⟨[("tool", v)], []⟩ := rfl
  have hv : Value.layered? ((Request.bare "Build" "scan").valuesAt ds c.env "tool") = some v := rfl
  refine ⟨hs, hv, ((config_of_layered _ _ _ "tool").2 _ _ hs hv rfl).2 fun text htext => ?_⟩
  exact Value.noConfusion htext

end Request

end PipelineConfig
