import PipelineConfig.Document.Decoding
import PipelineConfig.Proofs.CanonicalForm
import PipelineConfig.Proofs.Decoding
import PipelineConfig.Proofs.Independence
import PipelineConfig.Proofs.Interpolation

/-!
# Configurations are canonical

A configuration is made from documents, from JSON and from flags, by a merge and some passes over the
outcome. This file follows the canonical form of `PipelineConfig.Value.Canonical` all the way: what is
read of a YAML text is canonical (`PipelineConfig.ConfigDocument.canonical_of_ofText`), what is read of
JSON is, and a configuration that is made from canonical parts is
(`PipelineConfig.Request.canonical_of_resolve`).

Between reading and the final configuration nothing but three things happens to a mapping: it is laid
over another one, it loses entries, or it gets an entry whose value was part of a canonical value
before. All three are covered by the laws of `PipelineConfig.Mapping.Canonical`.
-/

namespace PipelineConfig

/-! ### Reading -/

namespace Value

theorem canonical_ofWhole (n : Int) : (ofWhole n).Canonical := by
  cases n with
  | ofNat n =>
    rw [ofWhole, ofUnsigned]
    split <;> trivial
  | negSucc n => trivial

mutual

/-- What a JSON tree stands for is canonical, in whatever order and however often it has its names. -/
theorem canonical_ofJson : ∀ j, (ofJson j).Canonical
  | .null | .bool _ | .float _ | .string _ => trivial
  | .int n => by
    rw [ofJson, ofNumber]
    split <;> trivial
  | .array items => by
    rw [ofJson, Canonical, canonicalItems_iff]
    exact canonical_of_mem_ofJsonItems items
  | .object members => Mapping.canonical_ofList (canonical_of_mem_ofJsonMembers members)

theorem canonical_of_mem_ofJsonItems : ∀ items, ∀ v ∈ ofJsonItems items, v.Canonical
  | [] => List.forall_mem_nil _
  | j :: rest => List.forall_mem_cons.mpr ⟨canonical_ofJson j, canonical_of_mem_ofJsonItems rest⟩

theorem canonical_of_mem_ofJsonMembers : ∀ members, ∀ e ∈ ofJsonMembers members, e.2.Canonical
  | [] => List.forall_mem_nil _
  | (_, j) :: rest =>
    List.forall_mem_cons.mpr ⟨canonical_ofJson j, canonical_of_mem_ofJsonMembers rest⟩

end

end Value

namespace Yaml.Decoder

open Decoding

theorem canonical_ofMeaning {text : String} {m : Meaning} {v : Value}
    (h : ofMeaning text m = .ok v) : v.Canonical := by
  cases m with
  | int n =>
    cases h
    exact Value.canonical_ofWhole n
  | wide n => cases h
  | _ =>
    cases h
    trivial

/-- A scalar has nothing inside. -/
theorem canonical_of_scalarValue {tag? : Option String} {style : Style} {text : String} {v : Value}
    (h : scalarValue tag? style text = .ok v) : v.Canonical := by
  rw [scalarValue.eq_def] at h
  split at h
  · split_ifs at h
    · split at h <;> cases h
      trivial
    · split at h
      · exact canonical_ofMeaning h
      · cases h
    · split at h <;> cases h
      trivial
    · cases h
      trivial
    · cases h
      trivial
  · split_ifs at h
    · exact canonical_ofMeaning h
    · cases h
      trivial

/-- **What a node is read as is canonical**, since the pairs of a mapping are collected in order. -/
theorem yields_value (levels : Nat) (node : Node) : Yields Value.Canonical (value levels node) := by
  -- by the levels of collections that may still open, as that is how deep a reading goes
  induction levels generalizing node with
  | zero =>
    rw [value]
    refine yields_bind fun node => ?_
    -- no collection may open any more, so only a scalar is read
    split
    · exact yields_ofExcept fun v => canonical_of_scalarValue
    · split <;> exact yields_fail _
    · split <;> exact yields_fail _
    · exact yields_fail _
    · exact yields_fail _
  | succ levels ih =>
    rw [value]
    refine yields_bind fun node => ?_
    split
    · exact yields_ofExcept fun v => canonical_of_scalarValue
    · split
      · exact yields_fail _
      · refine (yields_mapM ih _).bind fun items hitems => yields_pure ?_
        exact Value.canonicalItems_iff.mpr hitems
    · split
      · exact yields_fail _
      · have hpair : ∀ entry : Node × Node, Yields (fun p : String × Value => p.2.Canonical) (do
            let key ← value levels entry.1
            let v ← value levels entry.2
            let name ← MonadExcept.ofExcept (keyText key)
            pure (name, v)) := fun entry =>
          yields_bind fun key => (ih entry.2).bind fun v hv =>
            yields_bind fun name => yields_pure hv
        refine (yields_mapM hpair _).bind fun pairs hpairs => yields_pure ?_
        exact Mapping.canonical_ofList hpairs
    · exact yields_fail _
    · exact yields_fail _

theorem yields_mapping (levels : Nat) (node : Node) :
    Yields Mapping.Canonical (mapping levels node) :=
  (yields_entries yields_value levels node).bind fun _ hes =>
    yields_pure (Mapping.canonical_ofList hes)

end Yaml.Decoder

/-! ### Documents -/

namespace ConfigDocument

/-- **All sections of a document are canonical.** -/
structure Canonical (d : ConfigDocument) : Prop where
  general : d.general.Canonical
  stages : ∀ s ∈ d.stages, s.2.Canonical
  steps : ∀ s ∈ d.steps, s.2.Canonical
  hooks : d.hooks.Canonical

theorem canonical_empty : empty.Canonical :=
  ⟨Mapping.canonical_nil, List.forall_mem_nil _, List.forall_mem_nil _, Mapping.canonical_nil⟩

theorem yields_sectionsDecoder (levels : Nat) (node : Yaml.Node) :
    Yaml.Decoding.Yields (fun sections => ∀ s ∈ sections, s.2.Canonical)
      (sectionsDecoder levels node) := by
  have hnil : ∀ e ∈ ([] : List (String × Option Mapping)), ∀ m ∈ e.2, m.Canonical :=
    List.forall_mem_nil _
  have hentries := Yaml.Decoder.yields_orDefault hnil
    (Yaml.Decoder.yields_entries (Yaml.Decoder.yields_optional Yaml.Decoder.yields_mapping))
    levels node
  refine hentries.bind fun es hes => Yaml.Decoding.yields_pure fun s hs => ?_
  obtain ⟨e, he, hs⟩ := List.mem_filterMap.mp hs
  obtain ⟨m, hm, rfl⟩ := Option.map_eq_some_iff.mp hs
  exact hes e (Assoc.mem_of_mem_ofList he) m hm

theorem yields_decoder (levels : Nat) (node : Yaml.Node) :
    Yaml.Decoding.Yields Canonical (decoder levels node) := by
  refine Yaml.Decoder.yields_record canonical_empty (fun levels d name node hd => ?_) levels node
  have hmapping := Yaml.Decoder.yields_orDefault Mapping.canonical_nil
    Yaml.Decoder.yields_mapping levels node
  have hsections := yields_sectionsDecoder levels node
  split
  · exact Yaml.Decoding.yields_bind fun names => Yaml.Decoding.yields_pure { hd with }
  · exact hmapping.bind fun m hm => Yaml.Decoding.yields_pure { hd with general := hm }
  · exact hsections.bind fun ss hss => Yaml.Decoding.yields_pure { hd with stages := hss }
  · exact hsections.bind fun ss hss => Yaml.Decoding.yields_pure { hd with steps := hss }
  · exact hmapping.bind fun m hm => Yaml.Decoding.yields_pure { hd with hooks := hm }

/-- **Every document that is read is canonical**, however its text orders or repeats its keys. -/
theorem canonical_of_ofText {document text : String} {d : ConfigDocument}
    (h : ofText document text = .ok d) : d.Canonical := by
  rw [ofText] at h
  split at h
  · cases h
    exact canonical_empty
  · split at h
    · rename_i hread
      cases h
      exact Yaml.Decoder.of_readText yields_decoder hread
    · cases h

theorem Canonical.stepSection? {d : ConfigDocument} (h : d.Canonical) {step : String} :
    ∀ m ∈ d.stepSection? step, m.Canonical :=
  fun m hm => h.steps (step, m) (Assoc.mem_of_get? hm)

theorem Canonical.stageSection? {d : ConfigDocument} (h : d.Canonical) {stage : String} :
    ∀ m ∈ d.stageSection? stage, m.Canonical :=
  fun m hm => h.stages (stage, m) (Assoc.mem_of_get? hm)

end ConfigDocument

/-- All documents of a set are canonical. -/
structure DocumentSet.Canonical (ds : DocumentSet) : Prop where
  project : ds.project.Canonical
  defaults : ∀ d ∈ ds.defaults, d.Canonical
  customDefaults : ∀ d ∈ ds.customDefaults, d.Canonical

/-! ### Aliases and conditional parameters -/

section Passes

variable {m : Mapping} {path : List String} {v : Value}

/-- What is reached in a canonical mapping is canonical. -/
theorem Mapping.Canonical.walk? (h : m.Canonical) (hv : m.walk? path = some v) : v.Canonical := by
  induction path generalizing m with
  | nil => cases hv
  | cons name path ih =>
    obtain ⟨-, hname⟩ | ⟨inner, hinner, hrest⟩ := walk?_cons_eq_some_iff.mp hv
    · exact h.get? hname
    · have hc : Mapping.Canonical inner := h.get? hinner
      exact ih hc hrest

theorem Alias.canonical_value? {a : Alias} (h : m.Canonical) (hv : a.value? m = some v) :
    v.Canonical := by
  rw [value?] at hv
  split at hv
  · rename_i w hw
    obtain ⟨-, hsome⟩ := Option.ite_none_left_eq_some.mp hv
    obtain rfl := Option.some.inj hsome
    exact h.walk? hw
  · cases hv

theorem Parameter.canonical_canonicalize (p : Parameter) (h : m.Canonical) :
    (p.canonicalize m).1.Canonical := by
  rw [canonicalize]
  split
  · exact h
  · split
    · rename_i a v hfound
      obtain ⟨b, -, hb⟩ := List.exists_of_findSome?_eq_some hfound
      obtain ⟨w, hw, he⟩ := Option.map_eq_some_iff.mp hb
      obtain ⟨rfl, rfl⟩ := Prod.mk.inj he
      exact h.insert p.name (Alias.canonical_value? h hw)
    · exact h

theorem canonical_applyAliases (parameters : List Parameter) (allow : List String)
    (h : m.Canonical) : (applyAliases parameters allow m).1.Canonical := by
  rw [applyAliases_eq]
  have hfound := List.foldlRecOn (admitted parameters allow) (fun m p => (p.canonicalize m).1) h
    fun m hm p _ => p.canonical_canonicalize hm
  exact List.foldlRecOn (superseded parameters allow) Assoc.erase hfound fun m hm name _ =>
    hm.filter _

/-- A conditional parameter takes a value that is there already, or its default. -/
theorem Parameter.canonical_conditionalValue? {p : Parameter} {d : Dependency}
    (hp : ∀ v ∈ p.default?, v.Canonical) (h : m.Canonical)
    (hv : p.conditionalValue? d m = some v) : v.Canonical := by
  rcases Option.or_eq_some_iff.mp hv with hnested | ⟨-, hdefault⟩
  · obtain ⟨inner, hinner, hv⟩ := Option.bind_eq_some_iff.mp hnested
    obtain ⟨w, hw, hmapping⟩ := Option.bind_eq_some_iff.mp hinner
    obtain rfl := Value.asMapping?_eq_some_iff.mp hmapping
    have hc : Mapping.Canonical inner := h.get? hw
    exact hc.get? (Mapping.nonNull?_eq_some_iff.mp hv).1
  · exact hp v hdefault

theorem Parameter.canonical_fillConditional {p : Parameter} (hp : ∀ v ∈ p.default?, v.Canonical)
    (h : m.Canonical) : (fillConditional m p).Canonical := by
  rw [fillConditional]
  split
  · exact h
  · split
    · exact h
    · split
      · split
        · rename_i v hv
          exact h.insert p.name (canonical_conditionalValue? hp h hv)
        · exact h
      · exact h

end Passes

/-! ### Configurations -/

/-- Only texts change when references are resolved, and they stay texts. -/
theorem Template.canonical_resolveValue {key : String} {lookup : Mapping} {v w : Value}
    (h : v.Canonical) (hw : resolveValue key lookup v = .ok w) : w.Canonical := by
  cases v with
  | string s =>
    obtain ⟨resolved, -, rfl⟩ := map_eq_ok_iff.mp hw
    trivial
  | _ =>
    cases hw
    exact h

theorem Template.canonical_interpolateMapping {config resolved : Mapping} (h : config.Canonical)
    (hr : interpolateMapping config = .ok resolved) : resolved.Canonical := by
  obtain ⟨hsorted, hvalues⟩ := Mapping.canonical_iff.mp h
  refine Mapping.canonical_iff.mpr ⟨?_, fun e he => ?_⟩
  · rw [Assoc.Sorted, keys_interpolateMapping hr]
    exact hsorted
  · obtain ⟨⟨key, v⟩, hv, hentry⟩ := (mem_iff_of_mapM_eq_ok hr e).mp he
    rw [interpolateEntry_eq, map_eq_ok_iff] at hentry
    obtain ⟨w, hw, rfl⟩ := hentry
    exact canonical_resolveValue (hvalues (key, v) hv) hw

namespace Request

/-- **What a request brings along is canonical**: the defaults of its parameters and its flags. -/
structure Canonical (r : Request) : Prop where
  parameters : ∀ p ∈ r.parameters, ∀ v ∈ p.default?, v.Canonical
  defaults : r.defaults.Canonical
  flags : r.flags.Canonical

variable {r : Request} {ds : DocumentSet} {env : Environment}

theorem canonical_source (r : Request) (allow : List String) {m : Mapping} (h : m.Canonical) :
    (r.source allow m).Canonical :=
  (canonical_applyAliases r.parameters allow h).filter _

theorem canonical_of_jsonParameters? {m : Mapping} (h : r.jsonParameters? = some m) :
    m.Canonical := by
  obtain ⟨v, hv, hm⟩ := Option.bind_eq_some_iff.mp h
  obtain ⟨j, -, rfl⟩ := Option.map_eq_some_iff.mp hv
  have hj : (Value.ofJson j).Canonical := Value.canonical_ofJson j
  rw [Value.asMapping?_eq_some_iff.mp hm] at hj
  exact hj

theorem canonical_envSource (r : Request) (env : Environment) : (r.envSource env).Canonical := by
  rw [envSource_eq]
  refine Mapping.canonical_ofList fun p hp => ?_
  obtain ⟨name, -, hname⟩ := List.mem_filterMap.mp hp
  obtain ⟨v, hv, rfl⟩ := Option.map_eq_some_iff.mp hname
  obtain ⟨text, -, rfl⟩ := Option.map_eq_some_iff.mp hv
  trivial

/-- A section that may be missing is a canonical source, if it is there. -/
theorem canonical_of_mem_source? {allow : List String} {m? : Option Mapping}
    (h : ∀ m ∈ m?, m.Canonical) {m : Mapping} (hm : m ∈ (m?.map (r.source allow)).toList) :
    m.Canonical := by
  obtain ⟨n, hn, rfl⟩ := Option.map_eq_some_iff.mp (Option.mem_toList.mp hm)
  exact r.canonical_source allow (h n hn)

theorem canonical_of_mem_defaultSources {d : ConfigDocument} (h : d.Canonical) {m : Mapping}
    (hm : m ∈ r.defaultSources d) : m.Canonical := by
  rcases List.mem_cons.mp hm with rfl | hstep
  · exact r.canonical_source _ h.general
  · exact canonical_of_mem_source? h.stepSection? hstep

theorem canonical_of_mem_defaultDocuments (h : ds.Canonical) {d : ConfigDocument}
    (hd : d ∈ r.defaultDocuments ds) : d.Canonical := by
  rcases List.mem_append.mp hd with hdefault | hcustom
  · exact h.defaults d hdefault
  · split at hcustom
    · cases hcustom
    · exact h.customDefaults d hcustom

/-- **All sources of a configuration are canonical**, whatever place they are of. -/
theorem canonical_of_mem_sources (hr : r.Canonical) (hds : ds.Canonical) {m : Mapping}
    (hm : m ∈ r.sources ds env) : m.Canonical := by
  simp only [sources, List.mem_append, List.mem_singleton, List.mem_flatMap] at hm
  -- metadata, default documents, project document, environment, JSON, flags
  obtain ((((rfl | ⟨d, hd, hm⟩) | hproject) | rfl) | hjson) | rfl := hm
  · exact hr.defaults
  · exact canonical_of_mem_defaultSources (canonical_of_mem_defaultDocuments hds hd) hm
  · rcases List.mem_append.mp hproject with hm | hstage
    · exact canonical_of_mem_defaultSources hds.project hm
    · exact canonical_of_mem_source? hds.project.stageSection? hstage
  · exact (r.canonical_envSource env).filter _
  · exact canonical_of_mem_source? (fun _ hn => canonical_of_jsonParameters? hn) hjson
  · exact hr.flags.filter _

/-- **A configuration is canonical** if the documents and what the request brings along are. -/
theorem canonical_of_resolve (hr : r.Canonical) (hds : ds.Canonical) {c : Context} {s : StepConfig}
    (h : (r.resolve ds c).1 = .ok s) : s.config.Canonical ∧ s.hooks.Canonical := by
  have hs : r.stepConfig ds c.env = .ok s := h
  obtain ⟨config, hconfig, rfl⟩ := stepConfig_eq_ok_iff.mp hs
  have hmixed : (r.mixed ds c.env).Canonical :=
    Mapping.canonical_foldl_merge fun m hm => canonical_of_mem_sources hr hds hm
  have hfilled : (fillConditionals r.parameters (r.mixed ds c.env)).Canonical :=
    List.foldlRecOn r.parameters Parameter.fillConditional hmixed fun m hm p hp =>
      Parameter.canonical_fillConditional (hr.parameters p hp) hm
  refine ⟨Template.canonical_interpolateMapping hfilled hconfig,
    Mapping.canonical_foldl_merge fun m hm => ?_⟩
  -- the settings for collaborators are merged from the documents alone, and no filter is in between
  obtain ⟨d, hd, rfl⟩ := List.mem_map.mp hm
  rcases List.mem_append.mp hd with hdefault | hproject
  · exact (canonical_of_mem_defaultDocuments hds hdefault).hooks
  · obtain rfl := List.mem_singleton.mp hproject
    exact hds.project.hooks

end Request

end PipelineConfig
