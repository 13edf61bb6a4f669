import Mathlib.Data.List.Basic
import PipelineConfig.Metadata.Filters
import PipelineConfig.Value.Merge

/-!
# What the filters of a step admit

The six lists of `PipelineConfig.Metadata.filters` are put together in a walk over the parameters.
Which names end up in them can be said without the walk:

* in the list of a scope, the names of those parameters that have the scope, with the values that
  these depend on (`PipelineConfig.Metadata.mem_filters_scope_iff`);
* in the list of all names, the same for every parameter, whatever its scopes are
  (`PipelineConfig.Metadata.mem_filters_all_iff`);
* in both, the names that come with the surroundings of the step, and `verbose`.

So every list is part of the list of all names (`PipelineConfig.Metadata.scope_subset_all`). And
because of `verbose` no list is empty, apart from that of the environment scope, which would admit
everything if it were: here to be admitted is to be in the list
(`PipelineConfig.Metadata.admits_scope_iff`).
-/

namespace PipelineConfig

/-- A parameter of which only the name is said. -/
def Parameter.plain (name : String) : Parameter :=
  ⟨name, "", "", [], [], .string, false, none, none, [], [], false⟩

/-- The metadata of a step of which only the parameters are said. -/
def Metadata.plain (step : String) (parameters : List Parameter) : Metadata :=
  ⟨step, [], "", "", parameters, [], [], none, [], []⟩

namespace Filters

@[simp] theorem extend_all (f : Filters) (names : List String) (s : Scope) :
    (f.extend names s).all = f.all := by
  cases s <;> rfl

/-- Names go to the list of one scope. -/
theorem mem_scope_extend {f : Filters} {names : List String} {s t : Scope} {name : String} :
    name ∈ (f.extend names s).scope t ↔ name ∈ f.scope t ∨ (t = s ∧ name ∈ names) := by
  cases s <;> cases t <;> simp [extend, scope]

theorem scope_append (f g : Filters) (s : Scope) :
    (f.append g).scope s = f.scope s ++ g.scope s := by
  cases s <;> rfl

theorem scope_uniform {names env : List String} {s : Scope} (hs : s ≠ .env) :
    (uniform names env).scope s = names := by
  cases s with
  | env => exact absurd rfl hs
  | _ => rfl

end Filters

namespace Metadata

variable {f : Filters} {p : Parameter} {s : Scope} {name : String}

/-! ### The names of parameters -/

theorem all_extendScopes (names : List String) (scopes : List Scope) (f : Filters) :
    (scopes.foldl (fun f s => f.extend names s) f).all = f.all := by
  induction scopes generalizing f with
  | nil => rfl
  | cons t scopes ih => rw [List.foldl_cons, ih, Filters.extend_all]

theorem mem_scope_extendScopes {names : List String} {scopes : List Scope} :
    name ∈ (scopes.foldl (fun f s => f.extend names s) f).scope s ↔
      name ∈ f.scope s ∨ (s ∈ scopes ∧ name ∈ names) := by
  induction scopes generalizing f with
  | nil => simp
  | cons t scopes ih =>
    rw [List.foldl_cons, ih, Filters.mem_scope_extend, List.mem_cons]
    tauto

theorem all_addParameter : (addParameter f p).all = f.all ++ p.filterNames :=
  all_extendScopes p.filterNames p.scopes _

theorem mem_scope_addParameter :
    name ∈ (addParameter f p).scope s ↔
      name ∈ f.scope s ∨ (s ∈ p.scopes ∧ name ∈ p.filterNames) := by
  have hscope : ({ f with all := f.all ++ p.filterNames } : Filters).scope s = f.scope s := by
    cases s <;> rfl
  rw [addParameter, mem_scope_extendScopes, hscope]

theorem mem_all_addParameters {parameters : List Parameter} :
    name ∈ (parameters.foldl addParameter f).all ↔
      name ∈ f.all ∨ ∃ p ∈ parameters, name ∈ p.filterNames := by
  induction parameters generalizing f with
  | nil => simp
  | cons p parameters ih =>
    rw [List.foldl_cons, ih, all_addParameter, List.mem_append, List.exists_mem_cons_iff, or_assoc]

theorem mem_scope_addParameters {parameters : List Parameter} :
    name ∈ (parameters.foldl addParameter f).scope s ↔
      name ∈ f.scope s ∨ ∃ p ∈ parameters, s ∈ p.scopes ∧ name ∈ p.filterNames := by
  induction parameters generalizing f with
  | nil => simp
  | cons p parameters ih =>
    rw [List.foldl_cons, ih, mem_scope_addParameter, List.exists_mem_cons_iff, or_assoc]

/-! ### All names -/

variable {m : Metadata}

/-- **What may be set at all.** -/
theorem mem_filters_all_iff :
    name ∈ m.filters.all ↔ name = verboseParameter ∨
      (∃ p ∈ m.parameters, name ∈ p.filterNames) ∨ name ∈ m.contextNames ++ m.vaultNames := by
  change name ∈ m.parameterFilters.all ++ m.contextFilters.all ↔ _
  rw [List.mem_append, parameterFilters, mem_all_addParameters, or_assoc]
  change name ∈ [verboseParameter] ∨ _ ↔ _
  rw [List.mem_singleton]
  rfl

/-- **What a scope may set.** -/
theorem mem_filters_scope_iff (hs : s ≠ .env) :
    name ∈ m.filters.scope s ↔ name = verboseParameter ∨
      (∃ p ∈ m.parameters, s ∈ p.scopes ∧ name ∈ p.filterNames) ∨
        name ∈ m.contextNames ++ m.vaultNames := by
  rw [filters, Filters.scope_append, List.mem_append, parameterFilters, mem_scope_addParameters,
    contextFilters, Filters.scope_uniform hs, Filters.scope_uniform hs, List.mem_singleton,
    or_assoc]

theorem verbose_mem_scope (hs : s ≠ .env) : verboseParameter ∈ m.filters.scope s :=
  (mem_filters_scope_iff hs).mpr (Or.inl rfl)

/-- **A scope may only set what may be set at all.** -/
theorem scope_subset_all (hs : s ≠ .env) : m.filters.scope s ⊆ m.filters.all := by
  intro name hname
  rw [mem_filters_all_iff]
  rcases (mem_filters_scope_iff hs).mp hname with hverbose | ⟨p, hp, -, hnames⟩ | hcontext
  · exact Or.inl hverbose
  · exact Or.inr (Or.inl ⟨p, hp, hnames⟩)
  · exact Or.inr (Or.inr hcontext)

/-- What a filter admits stands in its list, because no list is empty. -/
theorem admits_scope_iff (hs : s ≠ .env) :
    Mapping.admits (m.filters.scope s) name = true ↔ name ∈ m.filters.scope s := by
  have hne : m.filters.scope s ≠ [] := List.ne_nil_of_mem (verbose_mem_scope hs)
  simp [Mapping.admits, hne]

end Metadata

end PipelineConfig
