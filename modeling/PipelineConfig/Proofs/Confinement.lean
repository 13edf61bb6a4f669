import PipelineConfig.Proofs.Filters
import PipelineConfig.Proofs.Precedence

/-!
# What can be in a configuration at all

The metadata of a step says which names its configuration may have:
`PipelineConfig.Filters.all`. Six kinds of places set values, through five different lists, and two
passes follow that fill in more; this file shows that no other name gets through any of them
(`PipelineConfig.Request.keys_subset_all`).

* The defaults stand under the names of parameters, or under the values that these depend on, and
  both are in the list (`PipelineConfig.Metadata.mem_all_of_mem_defaults`).
* Every other place passes a filter, and each filter is part of the list
  (`PipelineConfig.Request.mem_all_of_valueAt?`).
* Conditional parameters are filled in under their own names
  (`PipelineConfig.mem_keys_fillConditionals`), and the resolution of references keeps the keys
  (`PipelineConfig.Template.keys_interpolateMapping`).
-/

namespace PipelineConfig

/-! ### Defaults -/

namespace Metadata

theorem mem_keys_nestDefault {parameter : String} {default : Value} {defaults : Mapping}
    {d : Dependency} {key : String}
    (h : key ∈ Assoc.keys (nestDefault parameter default defaults d)) :
    key ∈ Assoc.keys defaults ∨ key = d.value := by
  rw [nestDefault] at h
  split at h
  · exact (Assoc.mem_keys_insert.mp h).symm
  · exact (Assoc.mem_keys_insert.mp h).symm
  · exact Or.inl h

theorem mem_keys_addDefault {defaults : Mapping} {p : Parameter} {key : String}
    (h : key ∈ Assoc.keys (addDefault defaults p)) :
    key ∈ Assoc.keys defaults ∨ key ∈ p.filterNames := by
  rw [addDefault] at h
  split at h
  · exact Or.inl h
  · rename_i default hdefault
    by_cases hconditions : p.conditions.isEmpty = true
    · rw [if_pos hconditions] at h
      rcases Assoc.mem_keys_insert.mp h with rfl | hmem
      · exact Or.inr List.mem_cons_self
      · exact Or.inl hmem
    · rw [if_neg hconditions] at h
      have hnested := Assoc.mem_keys_foldl (fun d : Dependency => [d.value])
        (fun m d key hkey => (mem_keys_nestDefault hkey).imp_right List.mem_singleton.mpr) h
      rcases hnested with hmem | ⟨d, hd, hkey⟩
      · exact Or.inl hmem
      · rw [List.mem_singleton.mp hkey]
        exact Or.inr (List.mem_cons_of_mem p.name (List.mem_map_of_mem hd))

/-- The defaults stand under names that may be set. -/
theorem mem_all_of_mem_defaults {m : Metadata} {key : String}
    (h : key ∈ Assoc.keys m.defaults) : key ∈ m.filters.all := by
  have hbrought := Assoc.mem_keys_foldl Parameter.filterNames
    (fun _ _ _ hkey => mem_keys_addDefault hkey) h
  rcases hbrought with hnil | ⟨p, hp, hkey⟩
  · exact absurd hnil List.not_mem_nil
  · exact mem_filters_all_iff.mpr (Or.inr (Or.inl ⟨p, hp, hkey⟩))

theorem name_mem_all {m : Metadata} {p : Parameter} (hp : p ∈ m.parameters) :
    p.name ∈ m.filters.all :=
  mem_filters_all_iff.mpr (Or.inr (Or.inl ⟨p, hp, List.mem_cons_self⟩))

end Metadata

/-! ### The later passes -/

/-- Conditional parameters are filled in under their own names. -/
theorem mem_keys_fillConditionals {parameters : List Parameter} {m : Mapping} {key : String}
    (h : key ∈ Assoc.keys (fillConditionals parameters m)) :
    key ∈ Assoc.keys m ∨ ∃ p ∈ parameters, key = p.name := by
  have hfilled := Assoc.mem_keys_foldl (fun p : Parameter => [p.name])
    (fun m p key hkey => ((p.filledIn_fillConditional m).mem_keys hkey).imp_right
      List.mem_singleton.mpr) h
  rcases hfilled with hmem | ⟨p, hp, hkey⟩
  · exact Or.inl hmem
  · exact Or.inr ⟨p, hp, List.mem_singleton.mp hkey⟩

/-! ### The places -/

namespace Request

variable {r : Request} {m : Metadata} {env : Environment} {key : String} {v : Value}

/-- A section only holds what its filter admits. -/
theorem mem_all_of_sectionValue? {s : Scope} (hs : s ≠ .env) {m? : Option Mapping}
    (h : r.sectionValue? (m.filters.scope s) m? key = some v) : key ∈ m.filters.all := by
  rw [sectionValue?, Option.ite_none_right_eq_some] at h
  exact Metadata.scope_subset_all hs ((Metadata.admits_scope_iff hs).mp h.1)

/-- **No place holds a value under a key that may not be set.** -/
theorem mem_all_of_valueAt? {place : SettingPlace}
    (h : (r.withMetadata m).valueAt? env key place = some v) : key ∈ m.filters.all := by
  cases place with
  | defaults =>
    have hmem : key ∈ Assoc.keys m.defaults :=
      Assoc.mem_keys_iff.mpr ⟨v, Assoc.mem_of_get? h⟩
    exact Metadata.mem_all_of_mem_defaults hmem
  | general d => exact mem_all_of_sectionValue? (s := .general) (by decide) h
  | step d => exact mem_all_of_sectionValue? (s := .steps) (by decide) h
  | stage d => exact mem_all_of_sectionValue? (s := .stages) (by decide) h
  | environment =>
    rw [valueAt?, variableValue?, Option.ite_none_right_eq_some] at h
    exact h.1
  | json => exact mem_all_of_sectionValue? (s := .parameters) (by decide) h
  | flags =>
    rw [valueAt?, Option.ite_none_right_eq_some] at h
    exact Metadata.scope_subset_all (s := .parameters) (by decide)
      ((Metadata.admits_scope_iff (by decide)).mp h.1)

theorem mem_all_of_mem_mixed {ds : DocumentSet}
    (h : key ∈ Assoc.keys ((r.withMetadata m).mixed ds env)) : key ∈ m.filters.all := by
  rw [← Assoc.get?_ne_none_iff, get?_mixed] at h
  rcases hvalues : (r.withMetadata m).valuesAt ds env key with _ | ⟨v, vs⟩
  · rw [hvalues] at h
    exact absurd Value.layered?_nil h
  · have hv : v ∈ (r.withMetadata m).valuesAt ds env key := hvalues ▸ List.mem_cons_self
    obtain ⟨place, -, hplace⟩ := List.mem_filterMap.mp hv
    exact mem_all_of_valueAt? hplace

/-- **Confinement**: whatever the documents, the environment, the JSON text and the flags hold, a
configuration has only keys that the metadata of the step names. -/
theorem keys_subset_all (r : Request) (m : Metadata) (ds : DocumentSet) (c : Context)
    (s : StepConfig) (h : ((r.withMetadata m).resolve ds c).1 = .ok s) :
    Assoc.keys s.config ⊆ m.filters.all := by
  intro key hkey
  have hs : (r.withMetadata m).stepConfig ds c.env = .ok s := h
  rw [stepConfig] at hs
  rcases hconfig : Template.interpolateMapping (fillConditionals (r.withMetadata m).parameters
      ((r.withMetadata m).mixed ds c.env)) with e | config
  · rw [hconfig] at hs
    cases hs
  · rw [hconfig] at hs
    cases hs
    rw [Template.keys_interpolateMapping hconfig] at hkey
    rcases mem_keys_fillConditionals hkey with hmixed | ⟨p, hp, rfl⟩
    · exact mem_all_of_mem_mixed hmixed
    · exact Metadata.name_mem_all hp

/-- The general settings, the environment, JSON and a flag all set a name that the metadata does not
have, and none of them gets it into the configuration. The value that a default depends on is a
name like others, which the environment may set. -/
theorem keys_subset_all_intruder :
    let script : Parameter := { Parameter.plain "script" with
      default? := some (.string "lint")
      conditions := [⟨"tool-is", [⟨"buildTool", "npm"⟩]⟩] }
    let buildTool : Parameter := { Parameter.plain "buildTool" with
      scopes := [.general], aliases := [⟨"tool", true⟩] }
    let m := Metadata.plain "scan" [script, buildTool]
    let project : ConfigDocument := { ConfigDocument.empty with
      general := [("intruder", .bool true), ("script", .string "x"), ("tool", .string "npm")]
      steps := [("scan", [("buildTool", .string "mvn"), ("intruder", .bool true)])] }
    let r : Request := { Request.bare "Build" "scan" with
      paramJson := "\x7b\"intruder\": true, \"verbose\": false\x7d"
      flags := [("intruder", .bool true)] }
    let c : Context := ⟨fun name =>
      if name = "PIPER_intruder" ∨ name = "PIPER_npm" then some "x" else none, 0, []⟩
    ∃ s, ((r.withMetadata m).resolve (.ofProject project) c).1 = .ok s ∧
      Assoc.keys s.config = ["buildTool", "npm", "script", "verbose"] ∧
      Assoc.keys s.config ⊆ m.filters.all ∧ "intruder" ∉ m.filters.all := by
  dsimp only
  refine (map_eq_ok_iff.mp ?keys).imp fun s h =>
    ⟨h.1, h.2, keys_subset_all _ _ _ _ s h.1, ?intruder⟩
  case keys => decide +kernel
  case intruder => decide

end Request

end PipelineConfig
