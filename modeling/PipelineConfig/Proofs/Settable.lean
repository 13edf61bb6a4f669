import PipelineConfig.Proofs.Isolation

/-!
# What flags and JSON can set

Flags and parameters given as JSON come last, so nothing stands in the way of a value that is given
there. It is the value of the configuration as it is, provided that nothing more is to be done with
it (`PipelineConfig.Value.Plain`): null is filled in later, a mapping is merged with what is below
it, and references in a text are resolved.

But both places are filtered like all others, by the list of the parameters scope. A name in that
list can be set (`PipelineConfig.Metadata.settable_of_mem`). A name that is not in it is dropped,
and what is given for it makes no difference (`PipelineConfig.Request.resolve_flag_of_not_mem`). So
the list decides, as long as there is a configuration at all
(`PipelineConfig.Metadata.settable_iff`).

In particular a parameter without a scope cannot be set by a flag or by JSON on its own account. It
can be if its name is in the list for another reason, of which there are few: it is `verbose`, or
another parameter of the scope depends on a value of that name, or the name comes with the
surroundings of the step.
-/

namespace PipelineConfig

/-! ### Aliases leave values alone -/

theorem Assoc.get?_eraseAll_of_not_mem {α : Type} {names : List String} {key : String}
    (hkey : key ∉ names) (m : List (String × α)) :
    Assoc.get? (names.foldl Assoc.erase m) key = Assoc.get? m key := by
  induction names generalizing m with
  | nil => rfl
  | cons name names ih =>
    rw [List.mem_cons, not_or] at hkey
    rw [List.foldl_cons, ih hkey.2, Assoc.get?_erase, if_neg (Ne.symm hkey.1)]

theorem Assoc.get?_eraseAll_of_mem {α : Type} {names : List String} {key : String}
    (hkey : key ∈ names) (m : List (String × α)) :
    Assoc.get? (names.foldl Assoc.erase m) key = none := by
  induction names generalizing m with
  | nil => cases hkey
  | cons name names ih =>
    rw [List.foldl_cons]
    by_cases hrest : key ∈ names
    · exact ih hrest _
    · have hname : name = key := (List.mem_cons.mp hkey).resolve_right hrest |>.symm
      rw [get?_eraseAll_of_not_mem hrest, Assoc.get?_erase, if_pos hname]

/-- Where there is nothing to drop, nothing is dropped. -/
theorem Assoc.eraseAll_eq_self {α : Type} {names : List String} {m : List (String × α)}
    (h : ∀ name ∈ names, get? m name = none) : names.foldl erase m = m := by
  induction names with
  | nil => rfl
  | cons name names ih =>
    have hkeep : erase m name = m := by
      refine List.filter_eq_self.mpr fun p hp => ?_
      have hname := get?_eq_none_iff.mp (h name List.mem_cons_self)
      exact decide_eq_true fun he => hname (he ▸ List.mem_map_of_mem hp)
    rw [List.foldl_cons, hkeep, ih fun other hother => h other (List.mem_cons_of_mem name hother)]

theorem mem_flatAliases {parameters : List Parameter} {name : String} :
    name ∈ flatAliases parameters ↔
      ∃ p ∈ parameters, ∃ a ∈ p.aliases, a.isFlat = true ∧ a.name = name := by
  rw [flatAliases, List.mem_filterMap]
  constructor
  · rintro ⟨a, ha, hname⟩
    obtain ⟨p, hp, hpa⟩ := List.mem_flatMap.mp ha
    rw [Option.ite_none_right_eq_some, Option.some.injEq] at hname
    exact ⟨p, hp, a, hpa, hname⟩
  · rintro ⟨p, hp, a, ha, hflat, hname⟩
    exact ⟨a, List.mem_flatMap.mpr ⟨p, hp, ha⟩, by rw [if_pos hflat, hname]⟩

section Aliases

variable {m : Mapping} {key : String} {v : Value}

theorem get?_canonicalizeAll_of_nonNull (h : Assoc.get? m key = some v) (hv : v.isNull = false)
    (parameters : List Parameter) :
    Assoc.get? (canonicalizeAll parameters m).1 key = some v := by
  induction parameters generalizing m with
  | nil => exact h
  | cons p rest ih => exact ih ((p.filledIn_canonicalize m).get?_of_nonNull h hv)

/-- **Applying aliases leaves a value alone** unless it is null – or stands under a plain alias of a
parameter that may be set here, which is the name of no parameter. -/
theorem get?_applyAliases_iff (h : Assoc.get? m key = some v) (hv : v.isNull = false)
    (parameters : List Parameter) (allow : List String) :
    Assoc.get? (applyAliases parameters allow m).1 key = some v ↔
      (key ∈ flatAliases (parameters.filter (fun p => Mapping.admits allow p.name)) →
        ∃ p ∈ parameters, p.name = key) := by
  have hany : (∃ p ∈ parameters, p.name = key) ↔
      parameters.any (fun p => p.name = key) = true := by simp
  rw [applyAliases, hany]
  constructor
  · intro hget hflat
    by_contra hnone
    have hdropped : key ∈ (flatAliases (parameters.filter
        (fun p => Mapping.admits allow p.name))).filter
          (fun name => !parameters.any (fun p => p.name = name)) :=
      List.mem_filter.mpr ⟨hflat, by simpa using hnone⟩
    have hboth := hget.symm.trans (Assoc.get?_eraseAll_of_mem hdropped _)
    cases hboth
  · intro hkey
    refine (Assoc.get?_eraseAll_of_not_mem ?_ _).trans (get?_canonicalizeAll_of_nonNull h hv _)
    intro hmem
    obtain ⟨hflat, hnone⟩ := List.mem_filter.mp hmem
    rw [hkey hflat] at hnone
    cases hnone

end Aliases

/-! ### Values that count as they are -/

/-- A value with which nothing more is to be done: it is neither null nor a mapping, and if it is a
text it refers to nothing. -/
structure Value.Plain (v : Value) : Prop where
  notNull : v.isNull = false
  notMapping : v.isMapping = false
  noReferences : ∀ text, v = .string text → Template.references text = []

theorem Value.plain_bool (b : Bool) : (Value.bool b).Plain :=
  ⟨rfl, rfl, fun _ h => Value.noConfusion h⟩

namespace Request

variable {r : Request} {ds : DocumentSet} {env : Environment} {c : Context} {s : StepConfig}
  {key : String} {v : Value}

/-- **The value of the last place that has one**, if it is plain, is that of the configuration. -/
theorem get?_of_last_place (hs : r.stepConfig ds env = .ok s) (hv : v.Plain)
    {below : List Value} (hvalues : r.valuesAt ds env key = below ++ [v]) :
    s.get? key = some v := by
  obtain ⟨config, hconfig, rfl⟩ := stepConfig_eq_ok_iff.mp hs
  have hmixed : Assoc.get? (r.mixed ds env) key = some v := by
    rw [get?_mixed, hvalues, Value.layered?_concat, Value.laidOver_of_not_isMapping hv.notMapping]
  have hfilled := get?_fillConditionals_of_nonNull hmixed hv.notNull r.parameters
  obtain ⟨w, hw, hget⟩ := Template.get?_interpolateMapping hconfig hfilled
  rw [Template.resolveValue_of_references_nil hv.noReferences] at hw
  cases hw
  exact hget

/-- JSON comes last but for the flags. -/
theorem valuesAt_eq (r : Request) (ds : DocumentSet) (env : Environment) (key : String) :
    ∃ below, r.valuesAt ds env key
      = below ++ (r.valueAt? env key .json).toList ++ (r.valueAt? env key .flags).toList := by
  obtain ⟨places, hplaces⟩ : ∃ places, r.places ds = places ++ [.json, .flags] :=
    ⟨_, (List.append_assoc _ [SettingPlace.general ds.project, .step ds.project,
      .stage ds.project, .environment] [.json, .flags]).symm⟩
  refine ⟨places.filterMap (r.valueAt? env key), ?_⟩
  rw [valuesAt, hplaces, List.filterMap_append, filterMap_cons_toList, filterMap_cons_toList,
    List.filterMap_nil, List.append_nil, List.append_assoc]

/-! ### Names in the list -/

theorem get?_of_flag (hs : (r.resolve ds c).1 = .ok s) (hv : v.Plain)
    (hadmits : Mapping.admits r.filters.parameters key = true)
    (hflags : Assoc.get? r.flags key = some v) : s.get? key = some v := by
  obtain ⟨below, hvalues⟩ := r.valuesAt_eq ds c.env key
  have hflag : r.valueAt? c.env key .flags = some v := by
    rw [valueAt?, if_pos hadmits, hflags]
  rw [hflag] at hvalues
  exact get?_of_last_place hs hv hvalues

theorem get?_of_json (hs : (r.resolve ds c).1 = .ok s) (hv : v.Plain)
    (hadmits : Mapping.admits r.filters.parameters key = true)
    (hkey : ∃ p ∈ r.parameters, p.name = key) {params : Mapping}
    (hjson : r.jsonParameters? = some params) (hparams : Assoc.get? params key = some v)
    (hflags : Assoc.get? r.flags key = none) : s.get? key = some v := by
  obtain ⟨below, hvalues⟩ := r.valuesAt_eq ds c.env key
  have hflag : r.valueAt? c.env key .flags = none := by
    rw [valueAt?, hflags, ite_self]
  have hgiven : r.valueAt? c.env key .json = some v := by
    rw [valueAt?, sectionValue?, if_pos hadmits, hjson]
    exact (get?_applyAliases_iff hparams hv.notNull _ _).mpr fun _ => hkey
  rw [hflag, hgiven] at hvalues
  exact get?_of_last_place hs hv (hvalues.trans (List.append_nil _))

/-! ### Names that are not in the list -/

/-- **A flag for a name that the list does not have makes no difference.** -/
theorem resolve_flag_of_not_mem {m : Metadata} (hkey : key ∉ m.filters.parameters) (r : Request)
    (v : Value) (ds : DocumentSet) (c : Context) :
    ({ r with flags := [(key, v)] }.withMetadata m).resolve ds c
      = ({ r with flags := [] }.withMetadata m).resolve ds c := by
  refine Request.resolve_congr_of_values _ _ rfl rfl (fun name => ?_) rfl rfl
  rw [valuesAt, valuesAt]
  refine List.filterMap_congr fun place _ => ?_
  cases place with
  | flags =>
    by_cases hname : key = name
    · have hadmits : ¬ Mapping.admits m.filters.parameters name = true := by
        rw [← hname]
        exact fun h => hkey ((Metadata.admits_scope_iff (s := .parameters) (by decide)).mp h)
      exact (if_neg hadmits).trans (if_neg hadmits).symm
    · rw [valueAt?, valueAt?]
      change (if _ then Assoc.get? [(key, v)] name else none) = if _ then Assoc.get? [] name else none
      rw [Assoc.get?_cons, if_neg hname]
      rfl
  | _ => rfl

end Request

/-! ### Which names can be set -/

namespace Metadata

/-- A name can be set: what a flag gives it is its value in every configuration that there is, and
so is what JSON gives it when there are no flags. -/
structure Settable (m : Metadata) (name : String) : Prop where
  byFlag : ∀ (r : Request) (ds : DocumentSet) (c : Context) (v : Value) (s : StepConfig), v.Plain →
    r.flags = [(name, v)] → ((r.withMetadata m).resolve ds c).1 = .ok s → s.get? name = some v
  byJson : ∀ (r : Request) (ds : DocumentSet) (c : Context) (v : Value) (s : StepConfig), v.Plain →
    r.jsonParameters? = some [(name, v)] → r.flags = [] →
    ((r.withMetadata m).resolve ds c).1 = .ok s → s.get? name = some v

variable {m : Metadata} {p : Parameter}

/-- A parameter in the list can be set. -/
theorem settable_of_mem (hp : p ∈ m.parameters) (hname : p.name ∈ m.filters.parameters) :
    m.Settable p.name := by
  have hadmits : Mapping.admits m.filters.parameters p.name = true :=
    (admits_scope_iff (s := .parameters) (by decide)).mpr hname
  constructor
  · intro r ds c v s hv hflags hs
    have hflag : Assoc.get? (r.withMetadata m).flags p.name = some v := by
      change Assoc.get? r.flags p.name = some v
      rw [hflags, Assoc.get?_cons, if_pos rfl]
    exact Request.get?_of_flag hs hv hadmits hflag
  · intro r ds c v s hv hjson hflags hs
    have hnone : Assoc.get? (r.withMetadata m).flags p.name = none := by
      change Assoc.get? r.flags p.name = none
      rw [hflags, Assoc.get?_nil]
    exact Request.get?_of_json hs hv hadmits ⟨p, hp, rfl⟩ hjson (if_pos rfl) hnone

/-- A name that is not in the list cannot be set, if there is any configuration: one value for it
gives the same configuration as another. -/
theorem not_settable_of_not_mem {name : String} (hname : name ∉ m.filters.parameters) {r : Request}
    {ds : DocumentSet} {c : Context} {s : StepConfig} (hflags : r.flags = [])
    (hs : ((r.withMetadata m).resolve ds c).1 = .ok s) : ¬ m.Settable name := by
  intro hsettable
  have hvalue : ∀ b, s.get? name = some (.bool b) := by
    intro b
    refine hsettable.byFlag { r with flags := [(name, .bool b)] } ds c _ s (Value.plain_bool b) rfl ?_
    rw [Request.resolve_flag_of_not_mem hname, ← hflags]
    exact hs
  have hboth := (hvalue true).symm.trans (hvalue false)
  cases hboth

/-- **Which parameters flags and JSON can set**, whatever scopes they have: those in the list of the
parameters scope. They are `verbose`, the parameters with that scope and the values which these
depend on, and what comes with the surroundings of the step. Any other can be set in the empty sense
only that no request for the step has a configuration, whatever the documents. -/
theorem settable_iff (m : Metadata) (p : Parameter) (hp : p ∈ m.parameters) :
    m.Settable p.name ↔
      p.name = verboseParameter ∨
      (∃ q ∈ m.parameters, .parameters ∈ q.scopes ∧ p.name ∈ q.filterNames) ∨
      p.name ∈ m.contextNames ++ m.vaultNames ∨
      ∀ (r : Request) (ds : DocumentSet) (c : Context) (s : StepConfig), r.flags = [] →
        ((r.withMetadata m).resolve ds c).1 ≠ .ok s := by
  have hlist : p.name ∈ m.filters.parameters ↔ _ :=
    mem_filters_scope_iff (s := .parameters) (by decide)
  rw [← or_assoc, ← or_assoc, or_assoc (a := p.name = verboseParameter), ← hlist]
  constructor
  · intro hsettable
    by_cases hname : p.name ∈ m.filters.parameters
    · exact Or.inl hname
    · exact Or.inr fun r ds c s hflags hs => not_settable_of_not_mem hname hflags hs hsettable
  · rintro (hname | hnever)
    · exact settable_of_mem hp hname
    by_cases hname : p.name ∈ m.filters.parameters
    · exact settable_of_mem hp hname
    · constructor
      · intro r ds c v s _ hflags hs
        have hr : { r with flags := [(p.name, v)] } = r := by rw [← hflags]
        rw [← hr, Request.resolve_flag_of_not_mem hname] at hs
        exact absurd hs (hnever _ ds c s rfl)
      · intro r ds c v s _ _ hflags hs
        exact absurd hs (hnever r ds c s hflags)

/-- A parameter without a scope: neither a flag nor JSON gets a value for it into the configuration.
Once its name is that of a secret as well, both do. -/
theorem settable_iff_without_scope :
    let token := Parameter.plain "token"
    let m := Metadata.plain "scan" [token]
    let m' : Metadata := { m with secrets := [⟨"token", "", "", []⟩] }
    let flag : Request := { Request.bare "Build" "scan" with flags := [("token", .string "x")] }
    let json : Request := { Request.bare "Build" "scan" with
      paramJson := "\x7b\"token\": \"x\"\x7d" }
    let value (r : Request) (m : Metadata) : Except ConfigError (Option String) :=
      ((r.withMetadata m).resolve (.ofProject .empty) ⟨fun _ => none, 0, []⟩).1.map
        (fun s => s.string? "token")
    token.scopes = [] ∧
    value flag m = .ok none ∧ value json m = .ok none ∧ ¬ m.Settable "token" ∧
    value flag m' = .ok (some "x") ∧ value json m' = .ok (some "x") ∧ m'.Settable "token" := by
  intro token m m' flag json value
  have hdropped : value json m = .ok none := by decide +kernel
  refine ⟨rfl, by decide +kernel, hdropped, fun h => ?unset, by decide +kernel, by decide +kernel,
    (settable_iff m' token List.mem_cons_self).mpr (Or.inr (Or.inr (Or.inl (by decide))))⟩
  case unset =>
    rcases (settable_iff m token List.mem_cons_self).mp h with hverbose | hscope | hcontext | hnever
    · revert hverbose
      decide
    · revert hscope
      decide
    · revert hcontext
      decide
    · obtain ⟨s, hs, -⟩ := map_eq_ok_iff.mp hdropped
      exact hnever json _ _ s rfl hs

end Metadata

end PipelineConfig
