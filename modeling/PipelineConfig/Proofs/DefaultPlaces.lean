import PipelineConfig.Proofs.FixedPoint
import PipelineConfig.Proofs.SecretPaths
import PipelineConfig.Secret.Credentials

/-!
# Parameters and credentials are looked for in the same places

Secrets are kept in three places by convention. For the secret of a parameter they are written down as
templates, and a template in which something is not set is left out. For a credential bundle they are put
together from the settings themselves. This file shows that both ways lead to the same paths, in the same
order (`PipelineConfig.ResourceReference.secretPaths_eq_locations`).

The parts of such a template are separated by slashes, and no reference has a slash in it. So the
references of a path are those of its parts (`PipelineConfig.Template.names_append_slash`), also after
something has been put in for them, and none comes about where parts meet. Hence it is enough to know what
each part stands for on its own, be it a reference, the name of the secret or a fixed folder
(`PipelineConfig.Template.Expands`). This needs the settings to have no references in themselves: those
would be resolved in a template, while a bundle takes them as they stand.
-/

namespace PipelineConfig

/-- A setting is a text other than the empty one. -/
theorem Credentials.setting?_eq_some_iff {config : Mapping} {name text : String} :
    setting? config name = some text ↔ Assoc.get? config name = some (.string text) ∧ text ≠ "" := by
  rw [setting?, Mapping.string?]
  rcases Assoc.get? config name with _ | v
  · simp
  · cases v with
    | string s =>
      rcases eq_or_ne s "" with rfl | hs
      · simp [Value.asString?]
      · simpa [Value.asString?, hs] using fun h => h ▸ hs
    | _ => simp [Value.asString?]

namespace Template

variable {config : Mapping} {key : String}

/-! ### Slashes separate references -/

section Slash

variable {cs ds : List Char}

instance (name : List Char) : Decidable (IsName name) :=
  inferInstanceAs (Decidable (∀ c ∈ name, isNameChar c = true))

theorem IsName.slash_notMem_written {name : List Char} (h : IsName name) : '/' ∉ written name := by
  have hslash : '/' ∉ name := fun hmem => absurd (h _ hmem) (by decide)
  simp [written, hslash]

theorem reference?_append_slash (h : reference? cs = none) (ds : List Char) :
    reference? (cs ++ '/' :: ds) = none := by
  rw [Option.eq_none_iff_forall_ne_some]
  intro name hname
  obtain ⟨hisName, rest, hrest⟩ := eq_written_of_reference? hname
  -- the reference would end before the slash, and so be there without it
  rw [List.append_eq_append_iff] at hrest
  rcases hrest with ⟨m, hwritten, hm⟩ | ⟨m, rfl, -⟩
  · rcases m with _ | ⟨c, m⟩
    · rw [List.append_nil] at hwritten
      rw [← hwritten, ← List.append_nil (written name), reference?_written hisName] at h
      cases h
    · obtain rfl : '/' = c := (List.cons.inj hm).1
      exact hisName.slash_notMem_written (hwritten ▸ by simp)
  · rw [reference?_written hisName] at h
    cases h

/-- **A slash cuts a text into parts** with pieces of their own. -/
theorem pieces_append_slash (cs ds : List Char) :
    pieces (cs ++ '/' :: ds) = pieces cs ++ .char '/' :: pieces ds := by
  induction cs using pieces_induction with
  | nil => exact pieces_cons (reference?_cons_of_ne (by decide) ds)
  | char c cs hc ih =>
    have hcut : reference? (c :: (cs ++ '/' :: ds)) = none := reference?_append_slash hc ds
    rw [List.cons_append, pieces_cons hcut, pieces_cons hc, ih, List.cons_append]
  | reference name cs hname ih =>
    rw [List.append_assoc, pieces_written hname, pieces_written hname, ih, List.cons_append]

theorem names_append_slash (cs ds : List Char) :
    names (cs ++ '/' :: ds) = names cs ++ names ds := by
  simp [names, pieces_append_slash]

/-- What is put in for the references of the parts is put in for those of the text. -/
theorem substitute_append_slash {cs' ds' : List Char} (hcs : substitute key config cs = .ok cs')
    (hds : substitute key config ds = .ok ds') :
    substitute key config (cs ++ '/' :: ds) = .ok (cs' ++ '/' :: ds') := by
  induction cs using pieces_induction generalizing cs' with
  | nil =>
    obtain rfl := Except.ok.inj hcs
    exact (substitute_cons_eq_ok_iff (reference?_cons_of_ne (by decide) ds)).mpr ⟨ds', hds, rfl⟩
  | char c cs hc ih =>
    obtain ⟨rest, hrest, rfl⟩ := (substitute_cons_eq_ok_iff hc).mp hcs
    exact (substitute_cons_eq_ok_iff (reference?_append_slash hc ds)).mpr ⟨_, ih hrest, rfl⟩
  | reference name cs hname ih =>
    obtain ⟨text, rest, htext, hrest, rfl⟩ := (substitute_written_eq_ok_iff hname).mp hcs
    rw [List.append_assoc]
    exact (substitute_written_eq_ok_iff hname).mpr ⟨text, _, htext, ih hrest, by simp⟩

end Slash

/-! ### What the parts of a template stand for -/

/-- What a template stands for, if everything in it is set: putting in the values once is enough, as they
have no references in them. -/
def Expands (config : Mapping) (template : String) : Option String → Prop
  | none => isResolvable template config = false
  | some text => isResolvable template config = true ∧ references text = [] ∧
      ∀ key, substitute key config template.toList = .ok text.toList

/-- A text without references stands for itself. -/
theorem expands_self {text : String} (h : references text = []) (config : Mapping) :
    Expands config text (some text) :=
  ⟨isResolvable_of_referenceFree (referenceFree_iff.mpr h) config, h,
    fun _ => substitute_of_names_nil h⟩

/-- A reference stands for a setting that is not empty. -/
theorem expands_reference {name : String} (hname : IsName name.toList)
    (hsetting : ∀ text, config.string? name = some text → references text = []) :
    Expands config ("$(" ++ name ++ ")") (Credentials.setting? config name) := by
  have hwritten : ("$(" ++ name ++ ")").toList = written name.toList ++ [] := by simp [written]
  have hnames : references ("$(" ++ name ++ ")") = [name] := by
    rw [references, hwritten, names_written hname, String.ofList_toList, names_nil]
  rcases hset : Credentials.setting? config name with _ | text
  · rw [Expands, isResolvable, hnames, List.all_cons, List.all_nil, Bool.and_true]
    split
    · next s hget => simpa [Credentials.setting?, Mapping.string?, hget, Value.asString?] using hset
    · rfl
  · obtain ⟨hget, hne⟩ := Credentials.setting?_eq_some_iff.mp hset
    refine ⟨?_, hsetting text (by simp [Mapping.string?, hget, Value.asString?]), fun key => ?_⟩
    · simp [isResolvable, hnames, hget, hne]
    · rw [hwritten]
      refine (substitute_written_eq_ok_iff hname).mpr ⟨text.toList, [], ?_, rfl, by simp⟩
      rw [String.ofList_toList, textOf?, hget]

/-- **Templates are put together with slashes** as the texts are that they stand for. -/
theorem Expands.append_slash {first second : String} {first? second? : Option String}
    (hfirst : Expands config first first?) (hsecond : Expands config second second?) :
    Expands config (first ++ "/" ++ second)
      (first?.bind fun first => second?.map fun second => first ++ "/" ++ second) := by
  have hresolvable : isResolvable (first ++ "/" ++ second) config
      = (isResolvable first config && isResolvable second config) := by
    simp only [isResolvable, references, SecretPath.toList_append_slash, names_append_slash, List.all_append]
  rcases first? with _ | firstText
  · rw [Expands] at hfirst
    rw [Option.bind_none, Expands, hresolvable, hfirst, Bool.false_and]
  rcases second? with _ | secondText
  · rw [Expands] at hsecond
    rw [Option.bind_some, Option.map_none, Expands, hresolvable, hsecond, Bool.and_false]
  · obtain ⟨hresolved, hplain, hsubstitute⟩ := hfirst
    obtain ⟨hresolved', hplain', hsubstitute'⟩ := hsecond
    refine ⟨by rw [hresolvable, hresolved, hresolved', Bool.and_self], ?_, fun key => ?_⟩
    · rw [references, SecretPath.toList_append_slash, names_append_slash]
      exact List.append_eq_nil_iff.mpr ⟨hplain, hplain'⟩
    · rw [SecretPath.toList_append_slash, SecretPath.toList_append_slash]
      exact substitute_append_slash (hsubstitute key) (hsubstitute' key)

theorem Expands.append_slash_self {template text : String} {place? : Option String}
    (h : Expands config template place?) (htext : references text = []) :
    Expands config (template ++ "/" ++ text) (place?.map (· ++ "/" ++ text)) := by
  have hjoined := h.append_slash (expands_self htext config)
  cases place? <;> exact hjoined

theorem Expands.interpolate {template text : String} (h : Expands config template (some text))
    (key : String) : interpolate key template config = .ok text := by
  obtain ⟨-, hplain, hsubstitute⟩ := h
  refine interpolate_eq_ok_iff.mpr (interpolateChars_succ_eq_ok_iff.mpr ⟨_, hsubstitute key, ?_⟩)
  exact interpolateChars_of_names_nil hplain key config _

end Template

/-! ### The places of a secret -/

namespace SecretPath

variable {config : Mapping} {templates : List String} {places : List (Option String)}

/-- Templates that stand for places, or for none, give the paths of these places. -/
theorem ofTemplates_of_expands (h : List.Forall₂ (Template.Expands config) templates places)
    (key : String) : ofTemplates key config templates
      = .ok (((places.filterMap id).map normalize).filter (fun path => path ≠ "")) := by
  induction h with
  | nil => rfl
  | @cons template place? templates places hplace _ ih =>
    rw [ofTemplates, ih]
    rcases place? with _ | place
    · rw [Template.Expands] at hplace
      rw [if_neg (by simp [hplace])]
      rfl
    · rw [if_pos hplace.1, hplace.interpolate key]
      by_cases hempty : normalize place = "" <;> simp [bind, Except.bind, hempty]

theorem references_of_expands (h : List.Forall₂ (Template.Expands config) templates places)
    {place : String} (hmem : some place ∈ places) : Template.references place = [] := by
  induction h with
  | nil => cases hmem
  | cons hplace _ ih =>
    rcases List.mem_cons.mp hmem with rfl | hmem
    · exact hplace.2.1
    · exact ih hmem

/-- A path without references has none when it is brought into its normal form. -/
theorem references_normalize {path : String} (h : Template.references path = []) :
    Template.references (normalize path) = [] := by
  rw [Template.references, ← Template.referenceFree_iff] at h ⊢
  intro name hname hin
  exact h name hname
    (isInfix_of_isInfix_normalize hname.slash_notMem_written (List.cons_ne_nil _ _) hin)

end SecretPath

namespace Credentials

/-- The places where a bundle is looked for, as far as they are set: those of one folder below another
are joined by a slash. -/
def places (config : Mapping) (bundle : String) : List (Option String) :=
  let path? := setting? config "vaultPath"
  let base? := setting? config "vaultBasePath"
  let pipeline? := setting? config "vaultPipelineName"
  let inFolder (folder : String) : String := folder ++ "/" ++ bundle
  [path?.map inFolder,
    (base?.bind fun base => pipeline?.map fun pipeline => base ++ "/" ++ pipeline).map inFolder,
    (base?.map (· ++ "/" ++ "GROUP-SECRETS")).map inFolder]

theorem locations_eq (config : Mapping) (bundle : String) :
    locations config bundle = ((places config bundle).filterMap id).map SecretPath.normalize := by
  have hgroup (base : String) : base ++ "/" ++ "GROUP-SECRETS" ++ "/" ++ bundle
      = base ++ "/GROUP-SECRETS/" ++ bundle := String.toList_injective (by simp)
  rw [locations, places]
  rcases setting? config "vaultPath" <;> rcases setting? config "vaultBasePath" <;>
    rcases setting? config "vaultPipelineName" <;> simp [hgroup]

end Credentials

namespace ResourceReference

variable {config : Mapping} {bundle : String} {r : ResourceReference}

/-- The settings that say where secrets are kept by convention. -/
def placeSettings : List String := ["vaultPath", "vaultBasePath", "vaultPipelineName"]

theorem isName_of_mem_placeSettings {name : String} (h : name ∈ placeSettings) :
    Template.IsName name.toList :=
  have hall : ∀ name ∈ placeSettings, name.toList.all Template.isNameChar = true := by decide
  List.all_eq_true.mp (hall name h)

/-- The templates stand for the places of a bundle of the same name. -/
theorem expands_templates
    (hsettings : ∀ name ∈ placeSettings, ∀ text, config.string? name = some text →
      Template.references text = [])
    (hbundle : Template.references bundle = []) :
    List.Forall₂ (Template.Expands config) (SecretPath.folders.map (fun folder => folder ++ "/" ++ bundle))
      (Credentials.places config bundle) := by
  have hreference (name : String) (hmem : name ∈ placeSettings) :
      Template.Expands config ("$(" ++ name ++ ")") (Credentials.setting? config name) :=
    Template.expands_reference (isName_of_mem_placeSettings hmem) (hsettings name hmem)
  have hpath : Template.Expands config "$(vaultPath)" (Credentials.setting? config "vaultPath") := by
    simpa using hreference "vaultPath" (by decide)
  have hbase : Template.Expands config "$(vaultBasePath)"
      (Credentials.setting? config "vaultBasePath") := by
    simpa using hreference "vaultBasePath" (by decide)
  have hpipeline : Template.Expands config "$(vaultPipelineName)"
      (Credentials.setting? config "vaultPipelineName") := by
    simpa using hreference "vaultPipelineName" (by decide)
  have hplain : Template.references "GROUP-SECRETS" = [] := by decide
  have hbelow := hbase.append_slash hpipeline
  have hgroup := hbase.append_slash_self hplain
  refine .cons (hpath.append_slash_self hbundle) (.cons ?_ (.cons ?_ .nil))
  · simpa using hbelow.append_slash_self hbundle
  · simpa using hgroup.append_slash_self hbundle

/-- **A secret is looked for where a bundle of its name is**, in the same order, if nothing that says where
refers to anything else; a place that comes to nothing is left out. No path has a reference in it. -/
theorem secretPaths_eq_locations
    (hsettings : ∀ name ∈ placeSettings, ∀ text, config.string? name = some text →
      Template.references text = [])
    (hbundle : Template.references bundle = []) (hne : bundle ≠ "") (hpaths : r.paths = [])
    (hdefault : r.default? = some bundle) (hname : ∀ text, config.string? r.name = some text → text = "") :
    r.secretPaths config
        = .ok ((Credentials.locations config bundle).filter (fun path => path ≠ "")) ∧
      ∀ path ∈ Credentials.locations config bundle, Template.references path = [] := by
  have hexpands := expands_templates hsettings hbundle
  have hsecret : r.secretName? config = some bundle := by
    rw [secretName?, hdefault]
    rcases hconfigured : config.string? r.name with _ | text
    · simp [hne]
    · simp [hname text hconfigured, hne]
  constructor
  · rw [secretPaths, templates, hpaths, List.isEmpty_nil, if_pos rfl, hsecret,
      Credentials.locations_eq]
    exact SecretPath.ofTemplates_of_expands hexpands r.name
  · intro path hpath
    rw [Credentials.locations_eq, List.mem_map] at hpath
    obtain ⟨place, hplace, rfl⟩ := hpath
    have hmem : some place ∈ Credentials.places config bundle := by simpa using hplace
    exact SecretPath.references_normalize (SecretPath.references_of_expands hexpands hmem)

/-- The parts of a reference in neighbouring settings do not join, and a place that comes to nothing is
left out. -/
theorem secretPaths_eq_locations_torn_reference :
    let config : Mapping := [("ciSecretName", .string ""), ("vaultBasePath", .string "//team/$("),
      ("vaultPath", .string "/"), ("vaultPipelineName", .string "vaultPath)")]
    let r : ResourceReference := ⟨"ciSecretName", vaultSecret, none, [], some "/", []⟩
    r.secretPaths config = .ok ["team/$(/vaultPath)", "team/$(/GROUP-SECRETS"] ∧
      Credentials.locations config "/" = ["", "team/$(/vaultPath)", "team/$(/GROUP-SECRETS"] := by
  intro config r
  have hlocations :
      Credentials.locations config "/" = ["", "team/$(/vaultPath)", "team/$(/GROUP-SECRETS"] := by
    decide +kernel
  have hsettings : ∀ name ∈ placeSettings, ∀ text, config.string? name = some text →
      Template.references text = [] := by
    intro name hname text htext
    simp only [placeSettings, List.mem_cons, List.not_mem_nil, or_false] at hname
    rcases hname with rfl | rfl | rfl <;> obtain rfl := Option.some.inj htext <;> decide
  have hname : ∀ text, config.string? r.name = some text → text = "" := by
    intro text htext
    obtain rfl := Option.some.inj htext
    rfl
  refine ⟨?_, hlocations⟩
  rw [(secretPaths_eq_locations hsettings (by decide) (by decide) rfl rfl hname).1, hlocations]
  rfl

end ResourceReference

end PipelineConfig
