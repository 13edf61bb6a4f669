import PipelineConfig.Proofs.Defaults
import PipelineConfig.Proofs.Independence

/-!
# Conditional parameters

Two pieces of code have to agree on the default of a conditional parameter. When the defaults of a
step are put together it is stored under each *value* that the parameter depends on, in a mapping,
as if the value were the name of a section. Documents may have such sections too, and lay theirs
over it. And when all sources have been mixed, the parameter looks into the section of the first
value that it depends on – provided it has no value of its own, and that what it depends on has
that value.

The parameters are filled in by a walk that reads the mapping it changes. If the conditions are
apart from what they fill in (`PipelineConfig.Metadata.ConditionsApart`), then the steps of the walk
are independent (`PipelineConfig.Metadata.ConditionsApart.independent`), and the mapping *before* the
walk decides what is there *after* it:

| in the mixed mapping | the parameter afterwards |
|---|---|
| it has a value, not null | as it was |
| what it depends on has another value than the one it needs, or no text, or is missing | as it was |
| that has the right value | what the section of the value has for it, if not null; or else its default; or else as it was |

Nothing else changes, and a second walk changes nothing
(`PipelineConfig.fillConditionals_fillConditionals`). As long as nobody but the defaults sets the
parameter or the section, the section holds the default that has been stored there, and the
parameter has it if and only if its condition is met (`PipelineConfig.Request.resolve_conditional`).
-/

namespace PipelineConfig

/-! ### One parameter -/

/-- What is a text is not null. -/
theorem Mapping.isSome_nonNull?_of_string? {m : Mapping} {name text : String}
    (h : m.string? name = some text) : (m.nonNull? name).isSome = true := by
  obtain ⟨v, hv, htext⟩ := Option.bind_eq_some_iff.mp h
  have hnull : v.isNull = false := by
    cases v <;> first | rfl | cases htext
  rw [nonNull?_eq_some_iff.mpr ⟨hv, hnull⟩]
  rfl

namespace Parameter

variable {p : Parameter} {d : Dependency}

theorem mem_dependencies (h : p.dependency? = some d) : d ∈ p.dependencies := by
  obtain ⟨c, hc, hd⟩ := Option.bind_eq_some_iff.mp h
  exact List.mem_flatMap.mpr ⟨c, List.mem_of_head? hc, List.mem_of_head? hd⟩

theorem isConditional_of_dependency (h : p.dependency? = some d) : p.isConditional = true := by
  rw [isConditional, h]
  rfl

theorem conditions_ne_nil (h : p.isConditional = true) : p.conditions ≠ [] := by
  intro hnil
  rw [isConditional, dependency?, hnil] at h
  cases h

/-- A parameter that has been filled in is not filled in anew. -/
theorem get?_fillConditional_fillConditional (hd : p.dependency? = some d)
    (hvalue : d.value ≠ p.name) (m : Mapping) :
    Assoc.get? (fillConditional (fillConditional m p) p) p.name
      = Assoc.get? (fillConditional m p) p.name := by
  have hfilled := p.filledIn_fillConditional m
  rw [get?_fillConditional_self hd (fillConditional m p)]
  by_cases hset : ((fillConditional m p).nonNull? p.name).isSome = true
  · rw [if_pos hset]
  by_cases hmet : (fillConditional m p).string? d.name = some d.value
  · -- it has no value, so it does not depend on itself, and its condition was met before
    have hother : d.name ≠ p.name := fun he => hset (he ▸ Mapping.isSome_nonNull?_of_string? hmet)
    have hmet' : m.string? d.name = some d.value := by
      rw [← hmet, Mapping.string?, Mapping.string?, hfilled.get?_of_ne hother]
    have hset' : ¬ (m.nonNull? p.name).isSome = true := by
      intro hsome
      have hself : fillConditional m p = m := by
        rw [fillConditional, hd]
        simp only [if_pos hsome]
      exact hset (hself.symm ▸ hsome)
    have hoffered : p.offered? d.value (fillConditional m p) = p.offered? d.value m :=
      offered?_congr (hfilled.get?_of_ne hvalue)
    rw [if_neg hset, if_pos hmet, hoffered, get?_fillConditional_self hd m, if_neg hset',
      if_pos hmet']
    cases (p.offered? d.value m).or p.default? <;> simp
  · rw [if_neg hset, if_neg hmet]

end Parameter

/-! ### All parameters -/

theorem sorted_fillConditionals (parameters : List Parameter) {m : Mapping}
    (h : Assoc.Sorted m) : Assoc.Sorted (fillConditionals parameters m) := by
  induction parameters generalizing m with
  | nil => exact h
  | cons p rest ih => exact ih ((p.filledIn_fillConditional m).sorted h)

namespace Metadata

/-- **Conditions are apart from what they fill in**: names are distinct, no value that a parameter
depends on is one of them, and what a parameter depends on first is not another conditional one. -/
structure ConditionsApart (m : Metadata) : Prop where
  names : (m.parameters.map Parameter.name).Nodup
  values : ∀ p ∈ m.parameters, ∀ d ∈ p.dependencies, d.value ∉ m.parameters.map Parameter.name
  dependencies : ∀ p ∈ m.parameters, ∀ q ∈ m.parameters, p.isConditional = true →
    p.name ≠ q.name → ∀ d ∈ q.dependency?, d.name ≠ p.name

instance (m : Metadata) : Decidable m.ConditionsApart :=
  decidable_of_iff ((m.parameters.map Parameter.name).Nodup ∧
      (∀ p ∈ m.parameters, ∀ d ∈ p.dependencies, d.value ∉ m.parameters.map Parameter.name) ∧
      ∀ p ∈ m.parameters, ∀ q ∈ m.parameters, p.isConditional = true →
        p.name ≠ q.name → ∀ d ∈ q.dependency?, d.name ≠ p.name)
    ⟨fun ⟨hnames, hvalues, hdependencies⟩ => ⟨hnames, hvalues, hdependencies⟩,
      fun h => ⟨h.names, h.values, h.dependencies⟩⟩

namespace ConditionsApart

variable {m : Metadata} (h : m.ConditionsApart) {p : Parameter} (hp : p ∈ m.parameters)
  {d : Dependency}
include h

theorem independent : Independent Parameter.fillConditional Parameter.name
    (m.parameters.filter Parameter.isConditional) := by
  refine independent_fillConditional h.names fun p hp q hq hconditional d hd => ⟨?_, fun hname => ?_⟩
  · intro hvalue
    exact h.values q hq d (Parameter.mem_dependencies hd) (hvalue ▸ List.mem_map_of_mem hp)
  · by_contra hne
    exact h.dependencies p hp q hq hconditional (Ne.symm hne) d hd hname

include hp

theorem value_ne_name (hd : p.dependency? = some d) : d.value ≠ p.name := by
  intro he
  exact h.values p hp d (Parameter.mem_dependencies hd) (he ▸ List.mem_map_of_mem hp)

/-- A conditional parameter has no default under its own name. -/
theorem get?_defaults_name (hd : p.dependency? = some d) : Assoc.get? m.defaults p.name = none := by
  have hconditions : ¬ p.conditions.isEmpty = true := by
    rw [List.isEmpty_iff]
    exact Parameter.conditions_ne_nil (Parameter.isConditional_of_dependency hd)
  rw [get?_defaults_of_name h.names h.values hp, if_neg hconditions]

/-- Its default is stored where it looks for it. -/
theorem offered?_defaults (hd : p.dependency? = some d) :
    p.offered? d.value m.defaults = p.default?.filter (fun v => !v.isNull) := by
  rw [← get?_defaults_of_dependency h.names h.values hp (Parameter.mem_dependencies hd),
    Parameter.offered?]
  rcases (Assoc.get? m.defaults d.value).bind Value.asMapping? with _ | inner
  · rfl
  · rw [Option.bind_some, Option.bind_some, Mapping.nonNull?]
    rcases Assoc.get? inner p.name with _ | v
    · rfl
    · cases hv : v.isNull <;> simp [hv, Option.filter]

end ConditionsApart

end Metadata

section Filled

variable {m : Metadata} (h : m.ConditionsApart) (x : Mapping)
include h

/-- **Under the name of a conditional parameter.** -/
theorem get?_fillConditionals_of_dependency {p : Parameter} (hp : p ∈ m.parameters)
    {d : Dependency} (hd : p.dependency? = some d) :
    Assoc.get? (fillConditionals m.parameters x) p.name =
      if (x.nonNull? p.name).isSome then Assoc.get? x p.name
      else if x.string? d.name = some d.value then
        ((p.offered? d.value x).or p.default?).or (Assoc.get? x p.name)
      else Assoc.get? x p.name := by
  have hmem : p ∈ m.parameters.filter Parameter.isConditional :=
    List.mem_filter.mpr ⟨hp, Parameter.isConditional_of_dependency hd⟩
  rw [fillConditionals_eq_foldl, h.independent.get?_foldl_of_mem hmem,
    Parameter.get?_fillConditional_self hd]

/-- **Under any other key.** -/
theorem get?_fillConditionals_of_other {key : String}
    (hkey : ∀ p ∈ m.parameters, p.isConditional = true → p.name ≠ key) :
    Assoc.get? (fillConditionals m.parameters x) key = Assoc.get? x key := by
  rw [fillConditionals_eq_foldl]
  refine h.independent.get?_foldl_of_not_mem (fun hmem => ?_) x
  obtain ⟨p, hp, hname⟩ := List.mem_map.mp hmem
  obtain ⟨hp, hconditional⟩ := List.mem_filter.mp hp
  exact hkey p hp hconditional hname

/-- **Parameters are filled in once and for all.** -/
theorem fillConditionals_fillConditionals {x : Mapping} (hx : Assoc.Sorted x) :
    fillConditionals m.parameters (fillConditionals m.parameters x)
      = fillConditionals m.parameters x := by
  have hsorted := sorted_fillConditionals m.parameters hx
  refine (sorted_fillConditionals m.parameters hsorted).ext hsorted fun key => ?_
  simp only [fillConditionals_eq_foldl]
  refine h.independent.get?_foldl_foldl (fun p hp y => ?_) x key
  obtain ⟨hp, hconditional⟩ := List.mem_filter.mp hp
  obtain ⟨d, hd⟩ := Option.isSome_iff_exists.mp hconditional
  exact Parameter.get?_fillConditional_fillConditional hd (h.value_ne_name hp hd) y

end Filled

/-! ### The configuration -/

namespace Request

/-- What only the defaults set is mixed as it stands there. -/
theorem get?_mixed_of_defaults {r : Request} {ds : DocumentSet} {env : Environment} {key : String}
    (h : ∀ source ∈ (r.sources ds env).tail, Assoc.get? source key = none) :
    Assoc.get? (r.mixed ds env) key = Assoc.get? r.defaults key := by
  have hsources : r.sources ds env = r.defaults :: (r.sources ds env).tail := rfl
  have habove : (r.sources ds env).tail.filterMap (fun m => Assoc.get? m key) = [] :=
    List.filterMap_eq_nil_iff.mpr h
  rw [mixed, hsources, Mapping.get?_foldl_merge, filterMap_cons_toList, habove, List.append_nil]
  rcases Assoc.get? r.defaults key with _ | v
  · rfl
  · exact Value.layered?_concat [] v

/-- A conditional parameter that only the defaults set, and whose section only they set, has its
default exactly if its condition is met. -/
theorem get?_fillConditionals_of_defaults (r : Request) {m : Metadata} (h : m.ConditionsApart)
    {p : Parameter} (hp : p ∈ m.parameters) {d : Dependency} (hd : p.dependency? = some d)
    {ds : DocumentSet} {env : Environment}
    (hnone : ∀ source ∈ ((r.withMetadata m).sources ds env).tail,
      Assoc.get? source p.name = none ∧ Assoc.get? source d.value = none) :
    Assoc.get? (fillConditionals m.parameters ((r.withMetadata m).mixed ds env)) p.name
      = if ((r.withMetadata m).mixed ds env).string? d.name = some d.value then p.default?
        else none := by
  have hname : Assoc.get? ((r.withMetadata m).mixed ds env) p.name = none :=
    (get?_mixed_of_defaults fun source hs => (hnone source hs).1).trans (h.get?_defaults_name hp hd)
  have hunset : ((r.withMetadata m).mixed ds env).nonNull? p.name = none := by
    rw [Mapping.nonNull?, hname]
  have hoffered : p.offered? d.value ((r.withMetadata m).mixed ds env)
      = p.default?.filter (fun v => !v.isNull) :=
    (Parameter.offered?_congr (get?_mixed_of_defaults fun source hs => (hnone source hs).2)).trans
      (h.offered?_defaults hp hd)
  -- the default is found in the section or, if it is null, taken from the parameter
  have hdefault : (p.default?.filter (fun v => !v.isNull)).or p.default? = p.default? := by
    rcases p.default? with _ | v
    · rfl
    · cases hv : v.isNull <;> simp [hv, Option.filter]
  rw [get?_fillConditionals_of_dependency h _ hp hd, hunset, if_neg (by simp), hoffered, hdefault,
    hname, Option.or_none]

/-- **Conditional parameters in the configuration of a step**, if conditions are apart from what they
fill in. The mixed mapping decides what each of them gets; nothing else is changed, and filling in
once more changes nothing. If besides the defaults no source sets the parameter or the section that
it looks into, then it has its default exactly if its condition is met, and otherwise no value. -/
theorem resolve_conditional (r : Request) (m : Metadata) (h : m.ConditionsApart) (ds : DocumentSet)
    (c : Context) :
    let mixed := (r.withMetadata m).mixed ds c.env
    let filled := fillConditionals m.parameters mixed
    ((r.withMetadata m).resolve ds c).1
      = (Template.interpolateMapping filled).map (fun config => ⟨config, r.hooks ds⟩) ∧
    (∀ p ∈ m.parameters, ∀ d ∈ p.dependency?,
      Assoc.get? filled p.name =
        if (mixed.nonNull? p.name).isSome then Assoc.get? mixed p.name
        else if mixed.string? d.name = some d.value then
          ((p.offered? d.value mixed).or p.default?).or (Assoc.get? mixed p.name)
        else Assoc.get? mixed p.name) ∧
    (∀ key, (∀ p ∈ m.parameters, p.isConditional = true → p.name ≠ key) →
      Assoc.get? filled key = Assoc.get? mixed key) ∧
    fillConditionals m.parameters filled = filled ∧
    ∀ p ∈ m.parameters, ∀ d ∈ p.dependency?,
      (∀ source ∈ ((r.withMetadata m).sources ds c.env).tail,
        Assoc.get? source p.name = none ∧ Assoc.get? source d.value = none) →
      Assoc.get? filled p.name
        = (if mixed.string? d.name = some d.value then p.default? else none) ∧
      ∀ v, filled.nonNull? p.name = some v ↔
        mixed.string? d.name = some d.value ∧ p.default? = some v ∧ v.isNull = false := by
  intro mixed filled
  have hmixed : Assoc.Sorted mixed := Mapping.sorted_foldl_merge _
  refine ⟨?resolved, fun p hp d hd => get?_fillConditionals_of_dependency h mixed hp hd,
    fun key hkey => get?_fillConditionals_of_other h mixed hkey,
    fillConditionals_fillConditionals h hmixed, fun p hp d hd hnone => ?defaults⟩
  case resolved =>
    change Template.interpolateMapping filled >>= _ = _
    rcases Template.interpolateMapping filled with e | config <;> rfl
  case defaults =>
    have hget : Assoc.get? filled p.name
        = if mixed.string? d.name = some d.value then p.default? else none :=
      r.get?_fillConditionals_of_defaults h hp hd hnone
    refine ⟨hget, fun v => ?_⟩
    rw [Mapping.nonNull?_eq_some_iff, hget]
    by_cases hmet : mixed.string? d.name = some d.value <;> simp [hmet]

/-- A document has a section for the one tool, and none for the version of Java. -/
theorem resolve_conditional_tools :
    let image : Parameter := { Parameter.plain "image" with
      scopes := [.steps], default? := some (.string "node:lts")
      conditions := [⟨"tool-is", [⟨"buildTool", "npm"⟩]⟩] }
    let goals : Parameter := { Parameter.plain "goals" with
      scopes := [.steps], default? := some (.string "install")
      conditions := [⟨"tool-is", [⟨"buildTool", "maven"⟩]⟩] }
    let jdk : Parameter := { Parameter.plain "jdk" with
      default? := some (.string "17")
      conditions := [⟨"language-is", [⟨"language", "java"⟩]⟩] }
    let tool : Parameter := { Parameter.plain "buildTool" with default? := some (.string "npm") }
    let language : Parameter := { Parameter.plain "language" with
      default? := some (.string "java") }
    let m := Metadata.plain "build" [image, goals, jdk, tool, language]
    let project : ConfigDocument := { ConfigDocument.empty with
      steps := [("build", [("npm", .mapping [("image", .string "node:20")]), ("goals", .null)])] }
    let r := Request.bare "Build" "build"
    let c : Context := ⟨fun _ => none, 0, []⟩
    let mixed := (r.withMetadata m).mixed (.ofProject project) c.env
    let filled := fillConditionals m.parameters mixed
    m.ConditionsApart ∧
    (∀ source ∈ ((r.withMetadata m).sources (.ofProject project) c.env).tail,
      Assoc.get? source "jdk" = none ∧ Assoc.get? source "java" = none) ∧
    Assoc.get? filled "image" = some (.string "node:20") ∧
    filled.nonNull? "jdk" = some (.string "17") ∧
    Assoc.get? filled "goals" = some .null ∧
    Assoc.get? filled "npm" = Assoc.get? mixed "npm" ∧
    fillConditionals m.parameters filled = filled := by
  intro image goals jdk tool language m project r c mixed filled
  have hapart : m.ConditionsApart := by decide +kernel
  have hnone : ∀ source ∈ ((r.withMetadata m).sources (.ofProject project) c.env).tail,
      Assoc.get? source "jdk" = none ∧ Assoc.get? source "java" = none := by decide +kernel
  obtain ⟨-, hslot, hother, htwice, hdefault⟩ :=
    resolve_conditional r m hapart (.ofProject project) c
  have himage := hslot image (.head _) ⟨"buildTool", "npm"⟩ rfl
  have hgoals := hslot goals (.tail _ (.head _)) ⟨"buildTool", "maven"⟩ rfl
  have hjdk := (hdefault jdk (.tail _ (.tail _ (.head _))) ⟨"language", "java"⟩ rfl hnone).2
    (.string "17")
  refine ⟨hapart, hnone, himage.trans ?image, hjdk.mpr ⟨?jdk, rfl, rfl⟩, hgoals.trans ?goals,
    hother "npm" ?npm, htwice⟩
  case image =>
    simp only [m, r, c, project, image, goals, jdk, tool, language]
    rfl
  case jdk => decide +kernel
  case goals =>
    simp only [m, r, c, project, image, goals, jdk, tool, language]
    rfl
  case npm => decide +kernel

end Request

end PipelineConfig
