import PipelineConfig.Proofs.ConditionalParameters
import PipelineConfig.Proofs.Settable

/-!
# The order of parameters does not matter

The metadata of a step lists its parameters in some order, and everything that is made of them is
made in that order: filters, defaults, the walk that applies aliases and the one that fills in
conditional parameters. Does the order make a difference to the configuration?

Not if the parameters keep out of each other's way (`PipelineConfig.Metadata.OrderFree`): their
names are distinct, no alias begins with one of them, no parameter depends on a value that is one of
them, and no conditional parameter depends first on another conditional one. Then

* the filters have the same names, in another order
  (`PipelineConfig.Metadata.mem_filters_scope_perm` and
  `PipelineConfig.Metadata.mem_filters_all_perm`);
* the defaults hold the same (`PipelineConfig.Metadata.get?_defaults_perm`);
* the steps of the two walks are independent, so they may be taken in any order
  (`PipelineConfig.Independent.get?_foldl_perm`).

So under every key all places hold the same values, and what is mixed from them is the same mapping;
it stays the same mapping when conditional parameters are filled in
(`PipelineConfig.fillConditionals_perm`). Hence the configuration is the same, or else the error
(`PipelineConfig.Request.resolve_perm`).
-/

namespace PipelineConfig

namespace Metadata

/-- The same metadata with other parameters. -/
def withParameters (m : Metadata) (parameters : List Parameter) : Metadata :=
  { m with parameters := parameters }

@[simp] theorem parameters_withParameters (m : Metadata) (parameters : List Parameter) :
    (m.withParameters parameters).parameters = parameters := rfl

/-- **The parameters keep out of each other's way.** -/
structure OrderFree (m : Metadata) : Prop where
  names : (m.parameters.map Parameter.name).Nodup
  /-- No alias begins with the name of a parameter. -/
  aliases : ∀ p ∈ m.parameters, ∀ a ∈ p.aliases, ∀ first ∈ a.path.head?,
    first ∉ m.parameters.map Parameter.name
  /-- No parameter depends on a value that is the name of a parameter. -/
  values : ∀ p ∈ m.parameters, ∀ d ∈ p.dependencies, d.value ∉ m.parameters.map Parameter.name
  /-- No conditional parameter is what another one depends on first. -/
  dependencies : ∀ p ∈ m.parameters, ∀ q ∈ m.parameters, p.conditions ≠ [] → q.conditions ≠ [] →
    p.name ≠ q.name → ∀ d ∈ q.dependency?, d.name ≠ p.name

instance (m : Metadata) : Decidable m.OrderFree :=
  decidable_of_iff ((m.parameters.map Parameter.name).Nodup ∧
      (∀ p ∈ m.parameters, ∀ a ∈ p.aliases, ∀ first ∈ a.path.head?,
        first ∉ m.parameters.map Parameter.name) ∧
      (∀ p ∈ m.parameters, ∀ d ∈ p.dependencies, d.value ∉ m.parameters.map Parameter.name) ∧
      ∀ p ∈ m.parameters, ∀ q ∈ m.parameters, p.conditions ≠ [] → q.conditions ≠ [] →
        p.name ≠ q.name → ∀ d ∈ q.dependency?, d.name ≠ p.name)
    ⟨fun ⟨hnames, haliases, hvalues, hdependencies⟩ =>
        ⟨hnames, haliases, hvalues, hdependencies⟩,
      fun h => ⟨h.names, h.aliases, h.values, h.dependencies⟩⟩

variable {m : Metadata} {parameters : List Parameter} (hperm : m.parameters.Perm parameters)
  {name : String}
include hperm

/-! ### Filters -/

theorem hasReference_perm (type : String) :
    (m.withParameters parameters).hasReference type = m.hasReference type :=
  hperm.any_eq.symm

theorem mem_contextNames_perm :
    name ∈ (m.withParameters parameters).contextNames ++
        (m.withParameters parameters).vaultNames ↔ name ∈ m.contextNames ++ m.vaultNames := by
  have hcontext : (m.withParameters parameters).contextNames = m.contextNames := by
    rw [contextNames, contextNames, hasReference_perm hperm]
    rfl
  have hvault : name ∈ (m.withParameters parameters).vaultNames ↔ name ∈ m.vaultNames := by
    rw [vaultNames, vaultNames, hasReference_perm hperm, hasReference_perm hperm]
    split
    · rw [List.mem_append, List.mem_append, (hperm.flatMap_right _).mem_iff,
        parameters_withParameters]
    · rfl
  rw [List.mem_append, List.mem_append, hcontext, hvault]

/-- What may be set at all is the same. -/
theorem mem_filters_all_perm :
    name ∈ (m.withParameters parameters).filters.all ↔ name ∈ m.filters.all := by
  rw [mem_filters_all_iff, mem_filters_all_iff, mem_contextNames_perm hperm]
  simp only [hperm.mem_iff, parameters_withParameters]

/-- What a scope may set is the same. -/
theorem mem_filters_scope_perm {s : Scope} (hs : s ≠ .env) :
    name ∈ (m.withParameters parameters).filters.scope s ↔ name ∈ m.filters.scope s := by
  rw [mem_filters_scope_iff hs, mem_filters_scope_iff hs, mem_contextNames_perm hperm]
  simp only [hperm.mem_iff, parameters_withParameters]

theorem admits_scope_perm {s : Scope} (hs : s ≠ .env) :
    Mapping.admits ((m.withParameters parameters).filters.scope s) name
      = Mapping.admits (m.filters.scope s) name := by
  rw [Bool.eq_iff_iff, admits_scope_iff hs, admits_scope_iff hs, mem_filters_scope_perm hperm hs]

/-! ### Aliases -/

/-- Aliases are applied with the same outcome. -/
theorem get?_applyAliases_perm (h : m.OrderFree) {allow allow' : List String}
    (hallow : ∀ name, Mapping.admits allow' name = Mapping.admits allow name) (x : Mapping)
    (key : String) :
    Assoc.get? (applyAliases parameters allow' x).1 key
      = Assoc.get? (applyAliases m.parameters allow x).1 key := by
  have hadmitted : (admitted m.parameters allow).Perm (admitted parameters allow') := by
    simp only [admitted, hallow]
    exact hperm.filter _
  have hindependent := independent_canonicalize_admitted h.names h.aliases allow
  -- which aliases are dropped depends on the parameters, not on their order
  have hsuperseded : (superseded m.parameters allow).Perm (superseded parameters allow') := by
    simp only [superseded, hperm.any_eq]
    exact ((hadmitted.flatMap_right Parameter.aliases).filterMap _).filter _
  rw [applyAliases_eq, applyAliases_eq]
  by_cases hkey : key ∈ superseded m.parameters allow
  · rw [Assoc.get?_eraseAll_of_mem hkey, Assoc.get?_eraseAll_of_mem (hsuperseded.mem_iff.mp hkey)]
  · rw [Assoc.get?_eraseAll_of_not_mem hkey,
      Assoc.get?_eraseAll_of_not_mem fun hmem => hkey (hsuperseded.mem_iff.mpr hmem)]
    exact (hindependent.get?_foldl_perm hadmitted x key).symm

end Metadata

/-! ### Conditional parameters -/

theorem Metadata.OrderFree.conditionsApart {m : Metadata} (h : m.OrderFree) :
    m.ConditionsApart where
  names := h.names
  values := h.values
  dependencies p hp q hq hconditional hne d hd :=
    h.dependencies p hp q hq (Parameter.conditions_ne_nil hconditional)
      (Parameter.conditions_ne_nil (Parameter.isConditional_of_dependency hd)) hne d hd

/-- Conditional parameters are filled in with the same outcome. -/
theorem fillConditionals_perm {m : Metadata} (h : m.OrderFree) {parameters : List Parameter}
    (hperm : m.parameters.Perm parameters) {x : Mapping} (hx : Assoc.Sorted x) :
    fillConditionals parameters x = fillConditionals m.parameters x := by
  refine (sorted_fillConditionals parameters hx).ext (sorted_fillConditionals m.parameters hx)
    fun key => ?_
  rw [fillConditionals_eq_foldl, fillConditionals_eq_foldl]
  exact (h.conditionsApart.independent.get?_foldl_perm (hperm.filter _) x key).symm

/-! ### Places -/

namespace Request

section Reordered

variable {m : Metadata} (h : m.OrderFree) {parameters : List Parameter}
  (hperm : m.parameters.Perm parameters) (r : Request)
include h hperm

/-- A section holds the same. -/
theorem sectionValue?_perm {s : Scope} (hs : s ≠ .env) (x? : Option Mapping) (key : String) :
    (r.withMetadata (m.withParameters parameters)).sectionValue?
        ((m.withParameters parameters).filters.scope s) x? key
      = (r.withMetadata m).sectionValue? (m.filters.scope s) x? key := by
  rw [sectionValue?, sectionValue?, Metadata.admits_scope_perm hperm hs]
  cases x? with
  | none => rfl
  | some x =>
    have haliased : Assoc.get? ((r.withMetadata (m.withParameters parameters)).aliased
          ((m.withParameters parameters).filters.scope s) x) key
        = Assoc.get? ((r.withMetadata m).aliased (m.filters.scope s) x) key :=
      Metadata.get?_applyAliases_perm hperm h (fun _ => Metadata.admits_scope_perm hperm hs) x key
    rw [Option.bind_some, Option.bind_some, haliased]

/-- **Every place holds the same** under every key. -/
theorem valueAt?_perm (env : Environment) (key : String) (place : SettingPlace) :
    (r.withMetadata (m.withParameters parameters)).valueAt? env key place
      = (r.withMetadata m).valueAt? env key place := by
  cases place with
  | defaults =>
    have hdefaults : Assoc.get? m.defaults key
        = Assoc.get? (m.withParameters parameters).defaults key :=
      Metadata.get?_defaults_perm hperm h.names h.values key
    exact hdefaults.symm
  | general d => exact r.sectionValue?_perm h hperm (s := .general) (by decide) _ key
  | step d => exact r.sectionValue?_perm h hperm (s := .steps) (by decide) _ key
  | stage d => exact r.sectionValue?_perm h hperm (s := .stages) (by decide) _ key
  | environment =>
    have hall : key ∈ (m.withParameters parameters).filters.all ↔ key ∈ m.filters.all :=
      Metadata.mem_filters_all_perm hperm
    exact if_congr hall rfl rfl
  | json => exact r.sectionValue?_perm h hperm (s := .parameters) (by decide) _ key
  | flags =>
    have hadmits : Mapping.admits ((m.withParameters parameters).filters.scope .parameters) key
        = Mapping.admits (m.filters.scope .parameters) key :=
      Metadata.admits_scope_perm hperm (by decide)
    exact if_congr (iff_of_eq (congrArg (· = true) hadmits)) rfl rfl

/-- What is mixed from the places is the same mapping. -/
theorem mixed_perm (ds : DocumentSet) (env : Environment) :
    (r.withMetadata (m.withParameters parameters)).mixed ds env
      = (r.withMetadata m).mixed ds env := by
  rw [mixed, mixed]
  refine Mapping.foldl_merge_congr fun key => ?_
  rw [filterMap_sources, filterMap_sources, valuesAt, valuesAt]
  exact List.filterMap_congr fun place _ => r.valueAt?_perm h hperm env key place

/-- **The order of parameters does not matter**: with the parameters in any other order there is the
same configuration with the same settings for collaborators, or the same error. -/
theorem resolve_perm (ds : DocumentSet) (c : Context) :
    ((r.withMetadata (m.withParameters parameters)).resolve ds c).1
      = ((r.withMetadata m).resolve ds c).1 := by
  have hfilled : fillConditionals parameters
        ((r.withMetadata (m.withParameters parameters)).mixed ds c.env)
      = fillConditionals m.parameters ((r.withMetadata m).mixed ds c.env) := by
    rw [r.mixed_perm h hperm ds c.env]
    exact fillConditionals_perm h hperm (Mapping.sorted_foldl_merge _)
  change stepConfig _ ds c.env = stepConfig _ ds c.env
  rw [stepConfig, stepConfig]
  change Template.interpolateMapping (fillConditionals parameters _) >>= _ = _
  rw [hfilled]
  rfl

end Reordered

/-- A tool under an older name, and two parameters that depend on which tool it is: listed in the
opposite order they make the same configuration. -/
theorem resolve_perm_reversed :
    let tool : Parameter := { Parameter.plain "buildTool" with
      scopes := [.general], aliases := [⟨"tool", true⟩] }
    let goal : Parameter := { Parameter.plain "goal" with
      default? := some (.string "install")
      conditions := [⟨"tool-is", [⟨"buildTool", "maven"⟩]⟩] }
    let script : Parameter := { Parameter.plain "script" with
      default? := some (.string "lint")
      conditions := [⟨"tool-is", [⟨"buildTool", "npm"⟩, ⟨"buildTool", "yarn"⟩]⟩] }
    let m := Metadata.plain "build" [script, goal, tool]
    let project : ConfigDocument := { ConfigDocument.empty with
      general := [("tool", .string "npm")] }
    let r := Request.bare "Build" "build"
    let c : Context := ⟨fun _ => none, 0, []⟩
    let whole (m : Metadata) := ((r.withMetadata m).resolve (.ofProject project) c).1.map
      (fun s => (s.string? "buildTool", s.string? "script", s.string? "goal"))
    m.OrderFree ∧ [script, goal, tool].Perm [tool, goal, script] ∧
    whole (m.withParameters [tool, goal, script]) = whole m ∧
    whole m = .ok (some "npm", some "lint", none) := by
  intro tool goal script m project r c whole
  have hfree : m.OrderFree := by decide +kernel
  have hperm : [script, goal, tool].Perm [tool, goal, script] :=
    (List.reverse_perm [script, goal, tool]).symm
  refine ⟨hfree, hperm, congrArg (Except.map _) (resolve_perm hfree hperm r _ c), ?_⟩
  decide +kernel

/-- A conditional parameter that another one depends on has to come before it. -/
example :
    let tool : Parameter := { Parameter.plain "buildTool" with default? := some (.string "npm") }
    let script : Parameter := { Parameter.plain "script" with
      default? := some (.string "lint")
      conditions := [⟨"tool-is", [⟨"buildTool", "npm"⟩]⟩] }
    let linter : Parameter := { Parameter.plain "linter" with
      default? := some (.string "eslint")
      conditions := [⟨"script-is", [⟨"script", "lint"⟩]⟩] }
    let linterOf (parameters : List Parameter) :=
      (((Request.bare "Build" "build").withMetadata (Metadata.plain "build" parameters)).resolve
        (.ofProject .empty) ⟨fun _ => none, 0, []⟩).1.map (fun s => s.string? "linter")
    linterOf [tool, script, linter] = .ok (some "eslint") ∧
      linterOf [tool, linter, script] = .ok none := by
  decide +kernel

end Request

end PipelineConfig
