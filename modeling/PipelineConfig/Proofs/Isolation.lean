import PipelineConfig.Proofs.Filters
import PipelineConfig.Proofs.Paths
import PipelineConfig.Proofs.Precedence

/-!
# Scopes do not reach beyond their lists

A section of a document is filtered *after* the aliases in it have been applied. So a key that the
filter drops might still leave a trace: a parameter could take its value from there, or an alias
could be dropped because of it. This file says when it leaves none.

A key is *immaterial* to a scope (`PipelineConfig.Metadata.Immaterial`) if it is not in the list of
the scope and no alias of a parameter in that list begins with it. All other keys are *material*.
Applying aliases reads material keys only and writes material keys only
(`PipelineConfig.agreeOn_applyAliases`), and the filter lets material keys only through. So two sets
of documents that agree on the material keys are one to a resolution: the configuration, the
settings for collaborators, the error if there is one, and the notes on deprecated names are the
same (`PipelineConfig.Request.resolve_congr`).

In particular nothing can be told from a key that a scope may not set
(`PipelineConfig.Request.resolve_eq_of_immaterial`).

A missing section and an empty one are not told apart either, and neither is a JSON text that is no
object; so sections that may be missing are read as empty here.
-/

namespace PipelineConfig

/-- Lists that correspond item by item, in items that a function does not tell apart, have the same
image. -/
theorem map_eq_of_forall₂ {α β γ : Type} {R : α → β → Prop} {f : α → γ} {g : β → γ} {xs : List α}
    {ys : List β} (h : List.Forall₂ R xs ys) (hfg : ∀ x y, R x y → f x = g y) :
    xs.map f = ys.map g := by
  induction h with
  | nil => rfl
  | cons hxy _ ih => rw [List.map_cons, List.map_cons, hfg _ _ hxy, ih]

/-! ### Mappings that agree where it matters -/

/-- Two mappings hold the same under the keys that matter. -/
def Mapping.AgreeOn (matters : String → Prop) (x y : Mapping) : Prop :=
  ∀ key, matters key → Assoc.get? x key = Assoc.get? y key

/-- The keys that a parameter is looked up under, its own name and the beginnings of its aliases,
all matter. -/
structure Parameter.Within (matters : String → Prop) (p : Parameter) : Prop where
  name : matters p.name
  aliases : ∀ a ∈ p.aliases, ∀ first, a.path.head? = some first → matters first

namespace Mapping

variable {matters : String → Prop} {x y : Mapping}

theorem AgreeOn.insert (h : AgreeOn matters x y) (key : String) (v : Value) :
    AgreeOn matters (Assoc.insert x key v) (Assoc.insert y key v) := by
  intro key' hkey'
  rw [Assoc.get?_insert, Assoc.get?_insert, h key' hkey']

theorem AgreeOn.eraseAll (h : AgreeOn matters x y) (keys : List String) :
    AgreeOn matters (keys.foldl Assoc.erase x) (keys.foldl Assoc.erase y) := by
  induction keys generalizing x y with
  | nil => exact h
  | cons key keys ih =>
    refine ih fun key' hkey' => ?_
    rw [Assoc.get?_erase, Assoc.get?_erase, h key' hkey']

theorem AgreeOn.nonNull? (h : AgreeOn matters x y) {key : String} (hkey : matters key) :
    x.nonNull? key = y.nonNull? key := by
  rw [Mapping.nonNull?, Mapping.nonNull?, h key hkey]

end Mapping

/-! ### Aliases -/

/-- A parameter with aliases is filled in under its own name. -/
theorem Parameter.filledIn_canonicalize (p : Parameter) (m : Mapping) :
    Mapping.FilledIn p.name m (p.canonicalize m).1 := by
  rw [canonicalize]
  rcases hunset : m.nonNull? p.name with _ | v
  · rcases p.aliased? m with _ | ⟨a, v⟩
    · exact Or.inl rfl
    · exact Or.inr ⟨hunset, v, rfl⟩
  · exact Or.inl rfl

section Aliases

variable {matters : String → Prop} {x y : Mapping}

theorem Alias.value?_congr (a : Alias)
    (h : ∀ first ∈ a.path.head?, Assoc.get? x first = Assoc.get? y first) :
    a.value? x = a.value? y := by
  rw [value?, value?, Mapping.walk?_congr h]

theorem Alias.value?_nil (a : Alias) : a.value? [] = none := by
  rw [value?]
  rcases a.path with _ | ⟨name, _ | ⟨next, rest⟩⟩ <;> rfl

theorem Parameter.Within.aliased? {p : Parameter} (hp : p.Within matters)
    (h : Mapping.AgreeOn matters x y) : p.aliased? x = p.aliased? y := by
  rw [Parameter.aliased?, Parameter.aliased?]
  refine findSome?_congr fun a ha => ?_
  rw [a.value?_congr fun first hfirst => h first (hp.aliases a ha first hfirst)]

/-- A parameter is brought under its own name in the same way. -/
theorem Parameter.Within.canonicalize {p : Parameter} (hp : p.Within matters)
    (h : Mapping.AgreeOn matters x y) :
    Mapping.AgreeOn matters (p.canonicalize x).1 (p.canonicalize y).1 ∧
      (p.canonicalize x).2 = (p.canonicalize y).2 := by
  rw [Parameter.canonicalize, Parameter.canonicalize, h.nonNull? hp.name, hp.aliased? h]
  split
  · exact ⟨h, rfl⟩
  · split
    · exact ⟨h.insert _ _, rfl⟩
    · exact ⟨h, rfl⟩

theorem agreeOn_canonicalizeAll {parameters : List Parameter}
    (hps : ∀ p ∈ parameters, p.Within matters) (h : Mapping.AgreeOn matters x y) :
    Mapping.AgreeOn matters (canonicalizeAll parameters x).1 (canonicalizeAll parameters y).1 ∧
      (canonicalizeAll parameters x).2 = (canonicalizeAll parameters y).2 := by
  induction parameters generalizing x y with
  | nil => exact ⟨h, rfl⟩
  | cons p rest ih =>
    obtain ⟨hagree, huses⟩ := (hps p List.mem_cons_self).canonicalize h
    obtain ⟨hrest, hmore⟩ := ih (fun q hq => hps q (List.mem_cons_of_mem p hq)) hagree
    simp only [canonicalizeAll]
    exact ⟨hrest, by rw [huses, hmore]⟩

/-- **Applying aliases reads and writes only what matters**, if everything matters under which an
admitted parameter is looked up. -/
theorem agreeOn_applyAliases (parameters : List Parameter) (allow : List String)
    (hps : ∀ p ∈ parameters, Mapping.admits allow p.name = true → p.Within matters)
    (h : Mapping.AgreeOn matters x y) :
    Mapping.AgreeOn matters (applyAliases parameters allow x).1 (applyAliases parameters allow y).1
      ∧ (applyAliases parameters allow x).2 = (applyAliases parameters allow y).2 := by
  have hadmitted : ∀ p ∈ parameters.filter (fun p => Mapping.admits allow p.name),
      p.Within matters := by
    intro p hp
    obtain ⟨hmem, hname⟩ := List.mem_filter.mp hp
    exact hps p hmem hname
  obtain ⟨hagree, huses⟩ := agreeOn_canonicalizeAll hadmitted h
  -- which aliases are dropped depends on the parameters, not on the section
  exact ⟨hagree.eraseAll _, huses⟩

theorem canonicalizeAll_nil (parameters : List Parameter) :
    canonicalizeAll parameters [] = ([], []) := by
  have hone : ∀ p : Parameter, p.canonicalize [] = ([], []) := by
    intro p
    have haliased : p.aliased? [] = none := by
      rw [Parameter.aliased?, List.findSome?_eq_none_iff]
      intro a ha
      rw [a.value?_nil, Option.map_none]
    simp [Parameter.canonicalize, haliased, Mapping.nonNull?]
  induction parameters with
  | nil => rfl
  | cons p rest ih => simp [canonicalizeAll, hone p, ih]

/-- There is nothing to apply aliases to in an empty section. -/
theorem applyAliases_nil (parameters : List Parameter) (allow : List String) :
    applyAliases parameters allow [] = ([], []) := by
  have herase : ∀ keys : List String, keys.foldl Assoc.erase ([] : Mapping) = [] := by
    intro keys
    induction keys with
    | nil => rfl
    | cons key keys ih => exact ih
  simp [applyAliases, canonicalizeAll_nil, herase]

end Aliases

/-! ### Immaterial keys -/

namespace Metadata

/-- A key is immaterial to a scope if the scope may not set it and no alias of a parameter that the
scope may set begins with it. -/
def Immaterial (m : Metadata) (s : Scope) (key : String) : Prop :=
  key ∉ m.filters.scope s ∧
    ∀ p ∈ m.parameters, p.name ∈ m.filters.scope s → ∀ a ∈ p.aliases, a.path.head? ≠ some key

/-- The keys of a section that matter to a scope. -/
def Material (m : Metadata) (s : Scope) (key : String) : Prop :=
  ¬ m.Immaterial s key

variable {m : Metadata} {s : Scope}

theorem material_of_mem_scope {key : String} (h : key ∈ m.filters.scope s) : m.Material s key :=
  fun himmaterial => himmaterial.1 h

/-- What a scope may set is looked up under material keys. -/
theorem within_material (hs : s ≠ .env) {p : Parameter} (hp : p ∈ m.parameters)
    (hname : Mapping.admits (m.filters.scope s) p.name = true) : p.Within (m.Material s) := by
  have hmem : p.name ∈ m.filters.scope s := (admits_scope_iff hs).mp hname
  refine ⟨material_of_mem_scope hmem, fun a ha first hfirst himmaterial => ?_⟩
  exact himmaterial.2 p hp hmem a ha hfirst

end Metadata

/-! ### Sections -/

namespace Request

variable {m : Metadata} {s : Scope}

theorem aliasUses_getD (r : Request) (allow : List String) (x? : Option Mapping) :
    (x?.map (r.aliasUses allow)).getD [] = r.aliasUses allow (x?.getD []) := by
  cases x? with
  | none => simp [aliasUses, applyAliases_nil]
  | some x => rfl

theorem sectionValue?_getD (r : Request) (allow : List String) (x? : Option Mapping)
    (key : String) :
    r.sectionValue? allow x? key = r.sectionValue? allow (some (x?.getD [])) key := by
  cases x? with
  | none => simp [sectionValue?, aliased, applyAliases_nil]
  | some x => rfl

/-- **A section is known from its material keys**: what it sets, and which deprecated names it
uses. -/
theorem section_congr (hs : s ≠ .env) (r : Request) (x? y? : Option Mapping)
    (h : Mapping.AgreeOn (m.Material s) (x?.getD []) (y?.getD [])) :
    (∀ key, (r.withMetadata m).sectionValue? (m.filters.scope s) x? key
      = (r.withMetadata m).sectionValue? (m.filters.scope s) y? key) ∧
    ((x?.map ((r.withMetadata m).aliasUses (m.filters.scope s))).getD []
      = (y?.map ((r.withMetadata m).aliasUses (m.filters.scope s))).getD []) := by
  obtain ⟨hagree, huses⟩ := agreeOn_applyAliases m.parameters (m.filters.scope s)
    (fun p hp hname => Metadata.within_material hs hp hname) h
  constructor
  · intro key
    rw [sectionValue?_getD, sectionValue?_getD _ _ y?, sectionValue?, sectionValue?]
    split
    · rename_i hadmits
      have hkey : key ∈ m.filters.scope s := (Metadata.admits_scope_iff hs).mp hadmits
      exact hagree key (Metadata.material_of_mem_scope hkey)
    · rfl
  · rw [aliasUses_getD, aliasUses_getD]
    exact huses

/-! ### Documents -/

/-- The section of a document that belongs to a scope; parameters given as JSON are in no
document. -/
def scopeSection (r : Request) (d : ConfigDocument) : Scope → Mapping
  | .general => d.general
  | .steps => (d.stepSection? r.step).getD []
  | .stages => (d.stageSection? r.stage).getD []
  | .parameters | .env => []

end Request

/-- Two documents say the same to a request where it matters. -/
structure ConfigDocument.AgreeOn (r : Request) (matters : Scope → String → Prop)
    (d d' : ConfigDocument) : Prop where
  sections : ∀ s, Mapping.AgreeOn (matters s) (r.scopeSection d s) (r.scopeSection d' s)
  hooks : d.hooks = d'.hooks

/-- Two sets of documents say the same to a request where it matters, document by document. -/
structure DocumentSet.AgreeOn (r : Request) (matters : Scope → String → Prop)
    (ds ds' : DocumentSet) : Prop where
  project : ds.project.AgreeOn r matters ds'.project
  defaults : List.Forall₂ (ConfigDocument.AgreeOn r matters) ds.defaults ds'.defaults
  customDefaults :
    List.Forall₂ (ConfigDocument.AgreeOn r matters) ds.customDefaults ds'.customDefaults

/-- Two texts with parameters as JSON say the same where it matters. -/
def Request.AgreeOnJson (r : Request) (matters : Scope → String → Prop) (json : String) : Prop :=
  Mapping.AgreeOn (matters .parameters) (r.jsonParameters?.getD [])
    ({ r with paramJson := json }.jsonParameters?.getD [])

/-- Agreeing in more is agreeing in less. -/
theorem DocumentSet.AgreeOn.mono {r : Request} {matters matters' : Scope → String → Prop}
    (hle : ∀ s key, matters' s key → matters s key) {ds ds' : DocumentSet}
    (h : ds.AgreeOn r matters ds') : ds.AgreeOn r matters' ds' := by
  have hone : ∀ d d' : ConfigDocument, d.AgreeOn r matters d' → d.AgreeOn r matters' d' :=
    fun d d' hd => ⟨fun s key hkey => hd.sections s key (hle s key hkey), hd.hooks⟩
  exact ⟨hone _ _ h.project, h.defaults.imp hone, h.customDefaults.imp hone⟩

namespace Request

variable {m : Metadata} {r : Request} {ds ds' : DocumentSet} {json : String}

theorem forall₂_defaultDocuments (h : ds.AgreeOn r m.Material ds') :
    List.Forall₂ (ConfigDocument.AgreeOn r m.Material) (r.defaultDocuments ds)
      (r.defaultDocuments ds') := by
  rw [defaultDocuments, defaultDocuments]
  refine List.rel_append h.defaults ?_
  split
  · exact List.Forall₂.nil
  · exact h.customDefaults

/-! ### Other documents -/

/-- A document has the same values for the merge. -/
theorem valueAt?_congr {d d' : ConfigDocument} (h : d.AgreeOn r m.Material d')
    (env : Environment) (key : String) :
    (r.withMetadata m).valueAt? env key (.general d)
        = (r.withMetadata m).valueAt? env key (.general d') ∧
      (r.withMetadata m).valueAt? env key (.step d)
        = (r.withMetadata m).valueAt? env key (.step d') ∧
      (r.withMetadata m).valueAt? env key (.stage d)
        = (r.withMetadata m).valueAt? env key (.stage d') := by
  refine ⟨?_, ?_, ?_⟩
  · exact (section_congr (s := .general) (by decide) r (some d.general) (some d'.general)
      (h.sections .general)).1 key
  · exact (section_congr (s := .steps) (by decide) r (d.stepSection? r.step)
      (d'.stepSection? r.step) (h.sections .steps)).1 key
  · exact (section_congr (s := .stages) (by decide) r (d.stageSection? r.stage)
      (d'.stageSection? r.stage) (h.sections .stages)).1 key

/-- A document uses the same deprecated names. -/
theorem documentUses_congr {d d' : ConfigDocument} (h : d.AgreeOn r m.Material d') :
    (r.withMetadata m).documentUses d = (r.withMetadata m).documentUses d' := by
  have hgeneral : (r.withMetadata m).aliasUses (m.filters.scope .general) d.general
      = (r.withMetadata m).aliasUses (m.filters.scope .general) d'.general :=
    (section_congr (s := .general) (by decide) r (some d.general) (some d'.general)
      (h.sections .general)).2
  have hstep := (section_congr (s := .steps) (by decide) r (d.stepSection? r.step)
      (d'.stepSection? r.step) (h.sections .steps)).2
  have hstage := (section_congr (s := .stages) (by decide) r (d.stageSection? r.stage)
      (d'.stageSection? r.stage) (h.sections .stages)).2
  rw [documentUses, documentUses]
  exact congrArg₂ _ (congrArg₂ _ hgeneral hstage) hstep

theorem valuesAt_congr (h : ds.AgreeOn r m.Material ds') (env : Environment) (key : String) :
    (r.withMetadata m).valuesAt ds env key = (r.withMetadata m).valuesAt ds' env key := by
  have hdocument : ∀ d d' : ConfigDocument, d.AgreeOn r m.Material d' →
      List.filterMap ((r.withMetadata m).valueAt? env key) [.general d, .step d]
        = List.filterMap ((r.withMetadata m).valueAt? env key) [.general d', .step d'] := by
    intro d d' hd
    obtain ⟨hgeneral, hstep, -⟩ := valueAt?_congr hd env key
    simp only [filterMap_cons_toList, hgeneral, hstep]
  have hdefaults : ((r.defaultDocuments ds).flatMap
        (fun d => [SettingPlace.general d, .step d])).filterMap ((r.withMetadata m).valueAt? env key)
      = ((r.defaultDocuments ds').flatMap
        (fun d => [SettingPlace.general d, .step d])).filterMap
          ((r.withMetadata m).valueAt? env key) := by
    rw [List.filterMap_flatMap, List.filterMap_flatMap, List.flatMap_def, List.flatMap_def,
      map_eq_of_forall₂ (forall₂_defaultDocuments h) hdocument]
  have hproject : List.filterMap ((r.withMetadata m).valueAt? env key) [.general ds.project,
        .step ds.project, .stage ds.project, .environment, .json, .flags]
      = List.filterMap ((r.withMetadata m).valueAt? env key) [.general ds'.project,
        .step ds'.project, .stage ds'.project, .environment, .json, .flags] := by
    obtain ⟨hgeneral, hstep, hstage⟩ := valueAt?_congr h.project env key
    simp only [filterMap_cons_toList, hgeneral, hstep, hstage]
  rw [valuesAt, valuesAt, places, places, List.filterMap_append, List.filterMap_append, hproject,
    List.filterMap_append, List.filterMap_append]
  exact congrArg (fun below => _ ++ below ++ _) hdefaults

theorem uses_congr (h : ds.AgreeOn r m.Material ds') :
    (r.withMetadata m).uses ds = (r.withMetadata m).uses ds' := by
  have hdefaults : (r.defaultDocuments ds).flatMap (r.withMetadata m).documentUses
      = (r.defaultDocuments ds').flatMap (r.withMetadata m).documentUses := by
    rw [List.flatMap_def, List.flatMap_def,
      map_eq_of_forall₂ (forall₂_defaultDocuments h) fun d d' hd => documentUses_congr hd]
  rw [uses, uses, documentUses_congr h.project]
  exact congrArg (fun below => below ++ _ ++ _) hdefaults

theorem hooks_congr (h : ds.AgreeOn r m.Material ds') :
    (r.withMetadata m).hooks ds = (r.withMetadata m).hooks ds' := by
  have hall : List.Forall₂ (ConfigDocument.AgreeOn r m.Material)
      (r.defaultDocuments ds ++ [ds.project]) (r.defaultDocuments ds' ++ [ds'.project]) :=
    List.rel_append (forall₂_defaultDocuments h) (.cons h.project .nil)
  have hhooks := map_eq_of_forall₂ (f := ConfigDocument.hooks) (g := ConfigDocument.hooks) hall
    fun d d' hd => hd.hooks
  rw [hooks, hooks]
  exact congrArg (List.foldl Mapping.merge []) hhooks

/-! ### Resolutions -/

/-- A resolution is known from the values that the places hold, from the settings for collaborators
and from the deprecated names that are used. -/
theorem resolve_congr_of_values (r r' : Request) {c : Context} (hstep : r.step = r'.step)
    (hparameters : r.parameters = r'.parameters)
    (hvalues : ∀ key, r.valuesAt ds c.env key = r'.valuesAt ds' c.env key)
    (hhooks : r.hooks ds = r'.hooks ds') (huses : r.uses ds = r'.uses ds') :
    r.resolve ds c = r'.resolve ds' c := by
  have hmixed : r.mixed ds c.env = r'.mixed ds' c.env := by
    rw [mixed, mixed]
    refine Mapping.foldl_merge_congr fun key => ?_
    rw [filterMap_sources, filterMap_sources, hvalues]
  rw [resolve, resolve, stepConfig, stepConfig, hmixed, hparameters, hhooks, huses, hstep]

theorem resolve_congr_documents (h : ds.AgreeOn r m.Material ds') (c : Context) :
    (r.withMetadata m).resolve ds c = (r.withMetadata m).resolve ds' c :=
  resolve_congr_of_values _ _ rfl rfl (valuesAt_congr h c.env) (hooks_congr h) (uses_congr h)

theorem resolve_congr_json (h : r.AgreeOnJson m.Material json) (ds : DocumentSet) (c : Context) :
    (r.withMetadata m).resolve ds c
      = ({ r with paramJson := json }.withMetadata m).resolve ds c := by
  have hsection : Mapping.AgreeOn (m.Material .parameters) (r.jsonParameters?.getD [])
      ({ r with paramJson := json }.jsonParameters?.getD []) := h
  obtain ⟨hvalue, huses⟩ := section_congr (by decide) r _ _ hsection
  have hhooks : (r.withMetadata m).hooks ds
      = ({ r with paramJson := json }.withMetadata m).hooks ds := rfl
  refine resolve_congr_of_values _ _ rfl rfl (fun key => ?_) hhooks ?_
  · rw [valuesAt, valuesAt]
    refine List.filterMap_congr fun place _ => ?_
    cases place with
    | json => exact hvalue key
    | _ => rfl
  · have hdocuments : (r.withMetadata m).documentUses
        = ({ r with paramJson := json }.withMetadata m).documentUses := rfl
    rw [uses, uses, hdocuments]
    exact congrArg (fun more => (r.defaultDocuments ds).flatMap
      ({ r with paramJson := json }.withMetadata m).documentUses
        ++ ({ r with paramJson := json }.withMetadata m).documentUses ds.project ++ more) huses

/-- **Only material keys matter to a resolution.** -/
theorem resolve_congr (hds : ds.AgreeOn r m.Material ds') (hjson : r.AgreeOnJson m.Material json)
    (c : Context) :
    (r.withMetadata m).resolve ds c
      = ({ r with paramJson := json }.withMetadata m).resolve ds' c :=
  (resolve_congr_documents hds c).trans (resolve_congr_json hjson ds' c)

/-- **Scope isolation**: documents and JSON that differ in nothing but a key in the sections of one
scope, to which the key is immaterial, give the same result, be it a configuration or an error, and
the same notes. -/
theorem resolve_eq_of_immaterial (m : Metadata) (s : Scope) (key : String)
    (hkey : m.Immaterial s key) (r : Request) (json : String) (ds ds' : DocumentSet)
    (hds : ds.AgreeOn r (fun t k => ¬ (t = s ∧ k = key)) ds')
    (hjson : r.AgreeOnJson (fun t k => ¬ (t = s ∧ k = key)) json) (c : Context) :
    (r.withMetadata m).resolve ds c
      = ({ r with paramJson := json }.withMetadata m).resolve ds' c := by
  have hmaterial : ∀ t k, m.Material t k → ¬ (t = s ∧ k = key) := by
    rintro t k hk ⟨rfl, rfl⟩
    exact hk hkey
  exact resolve_congr (hds.mono hmaterial) (fun k hk => hjson k (hmaterial _ k hk)) c

/-- An alias of a parameter that only the sections of steps may set is immaterial to general
settings: it may be there or not. The path alias beside it is followed all the same. -/
theorem resolve_eq_of_immaterial_alias :
    let user : Parameter := { Parameter.plain "user" with
      scopes := [.general], aliases := [⟨"account/login", true⟩] }
    let password : Parameter := { Parameter.plain "password" with
      scopes := [.steps], aliases := [⟨"pwd", true⟩] }
    let m := Metadata.plain "scan" [user, password]
    let account : Value := .mapping [("login", .string "root")]
    let d : ConfigDocument := { ConfigDocument.empty with
      general := [("account", account), ("pwd", .string "hidden")] }
    let d' : ConfigDocument := { ConfigDocument.empty with general := [("account", account)] }
    let r := Request.bare "Build" "scan"
    let c : Context := ⟨fun _ => none, 0, []⟩
    m.Immaterial .general "pwd" ∧
    (DocumentSet.ofProject d).AgreeOn r (fun t k => ¬ (t = .general ∧ k = "pwd")) (.ofProject d') ∧
    r.AgreeOnJson (fun t k => ¬ (t = .general ∧ k = "pwd")) "null" ∧
    (r.withMetadata m).resolve (.ofProject d) c
      = ({ r with paramJson := "null" }.withMetadata m).resolve (.ofProject d') c ∧
    ((r.withMetadata m).resolve (.ofProject d) c).1 = .ok ⟨[("user", .string "root")], []⟩ ∧
    ((r.withMetadata m).resolve (.ofProject d) c).2.notes
      = [⟨"account/login", "user", "scan", 0⟩] := by
  dsimp only
  refine ⟨?key, ?documents, ?json,
    resolve_eq_of_immaterial _ _ _ ?key _ _ _ _ ?documents ?json _, rfl, rfl⟩
  case key =>
    rw [Metadata.Immaterial]
    decide
  case documents =>
    refine ⟨⟨fun t k hk => ?_, rfl⟩, .nil, .nil⟩
    cases t with
    | general =>
      have hne : "pwd" ≠ k := fun h => hk ⟨rfl, h.symm⟩
      simp [scopeSection, DocumentSet.ofProject, Assoc.get?_cons, hne]
    | _ => rfl
  case json =>
    have hempty : (bare "Build" "scan").jsonParameters? = none := rfl
    have hnull : { bare "Build" "scan" with paramJson := "null" }.jsonParameters? = none := rfl
    intro k _
    rw [hempty, hnull]

end Request

end PipelineConfig
