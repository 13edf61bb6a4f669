import PipelineConfig.Proofs.Confinement
import PipelineConfig.Proofs.Listings
import PipelineConfig.Proofs.Settable
import PipelineConfig.Proofs.StageDocument

/-!
# Explicit activation, and what metadata do to it

A step with conditions can be activated explicitly: if its configuration holds a truth value under
the name of the step, no condition is looked at. That value comes from some section of some
document, the last one that has anything under the name
(`PipelineConfig.Request.LastWord`).

Once the metadata of the step are known its sections are filtered and their aliases applied, as they
are for every other name. Nothing is made of the fact that the name is that of the step. So an
explicit activation gets through only if the metadata provide for it, and they do so exactly if
(`PipelineConfig.Metadata.Provides`)

* the list of the scope of that section has the name;
* the name is no plain alias there which gives way to the name of a parameter;
* nothing above the section has a value now, neither another section by an alias nor the variable
  of that name.

Then the step is decided on as without metadata
(`PipelineConfig.StageDocument.explicit_withMetadata`). Otherwise it may be decided on by other
means, and it is if no list has the name: then nothing is left to activate it explicitly, and the
conditions decide.
-/

namespace PipelineConfig

/-- The last value that a list has comes from an item behind which there is none. -/
theorem exists_suffix_of_filterMap_concat {α β : Type} {f : α → Option β} {xs : List α}
    {below : List β} {b : β} (h : xs.filterMap f = below ++ [b]) :
    ∃ a above, a :: above <:+ xs ∧ f a = some b ∧ ∀ q ∈ above, f q = none := by
  obtain ⟨front, back, rfl, -, hback⟩ := List.filterMap_eq_append_iff.mp h
  obtain ⟨silent, a, above, rfl, -, ha, habove⟩ := List.filterMap_eq_cons_iff.mp hback
  refine ⟨a, above, ?_, ha, fun q hq => ?_⟩
  · rw [← List.append_assoc]
    exact List.suffix_append _ _
  · by_contra hne
    obtain ⟨v, hv⟩ := Option.ne_none_iff_exists'.mp hne
    have hmem : v ∈ above.filterMap f := List.mem_filterMap.mpr ⟨q, hq, hv⟩
    rw [habove] at hmem
    cases hmem

/-! ### The last word on a name -/

namespace SettingPlace

/-- The scope of a place that is a section of a document. -/
def scope? : SettingPlace → Option Scope
  | .general _ => some .general
  | .step _ => some .steps
  | .stage _ => some .stages
  | _ => none

/-- The section that a place is, if the document has it. -/
def section? (stage step : String) : SettingPlace → Option Mapping
  | .general d => some d.general
  | .step d => d.stepSection? step
  | .stage d => d.stageSection? stage
  | _ => none

theorem scope?_ne_env {place : SettingPlace} {s : Scope} (h : place.scope? = some s) :
    s ≠ .env := by
  rintro rfl
  cases place <;> cases h

end SettingPlace

namespace Request

/-- **A place has the last word** on a name: it has a value, and none of those above it has one. -/
structure LastWord (r : Request) (ds : DocumentSet) (env : Environment) (key : String) (v : Value)
    (place : SettingPlace) (above : List SettingPlace) : Prop where
  stands : place :: above <:+ r.places ds
  speaks : r.valueAt? env key place = some v
  silent : ∀ q ∈ above, r.valueAt? env key q = none

variable {r : Request} {ds : DocumentSet} {env : Environment} {s : StepConfig} {key : String}
  {v : Value} {place : SettingPlace} {above : List SettingPlace}

/-- **The last word counts**, if it is plain. -/
theorem LastWord.get? (h : r.LastWord ds env key v place above) (hv : v.Plain)
    (hs : r.stepConfig ds env = .ok s) : s.get? key = some v := by
  obtain ⟨front, hplaces⟩ := h.stands
  have habove : above.filterMap (r.valueAt? env key) = [] :=
    List.filterMap_eq_nil_iff.mpr h.silent
  have hvalues : r.valuesAt ds env key = front.filterMap (r.valueAt? env key) ++ [v] := by
    rw [valuesAt, ← hplaces, List.filterMap_append, filterMap_cons_toList, h.speaks, habove]
    rfl
  exact get?_of_last_place hs hv hvalues

/-! ### Requests without metadata -/

variable {stage step : String}

/-- Without metadata a section holds what it holds, and other places hold nothing. -/
theorem valueAt?_bare (place : SettingPlace) : (bare stage step).valueAt? env key place
    = (place.section? stage step).bind (fun m => Assoc.get? m key) := by
  cases place with
  | json =>
    have hunread : (Json.read? (Text.trim "")).isNone = true := by decide +kernel
    have hnone : (bare stage step).jsonParameters? = none := by
      change ((Json.read? (Text.trim "")).map _).bind _ = none
      rw [Option.isNone_iff_eq_none.mp hunread]
      rfl
    rw [valueAt?, sectionValue?, hnone]
    exact ite_self none
  | _ => rfl

/-- Only sections have a last word without metadata. -/
theorem LastWord.exists_scope (h : (bare stage step).LastWord ds env key v place above) :
    ∃ s, place.scope? = some s := by
  have hspeaks := h.speaks
  rw [valueAt?_bare] at hspeaks
  cases place with
  | general d => exact ⟨_, rfl⟩
  | step d => exact ⟨_, rfl⟩
  | stage d => exact ⟨_, rfl⟩
  | _ => cases hspeaks

/-- Without metadata a truth value in the configuration is some section's last word. -/
theorem exists_lastWord {b : Bool} (hs : (bare stage step).stepConfig ds env = .ok s)
    (hb : s.get? key = some (.bool b)) :
    ∃ place above, (bare stage step).LastWord ds env key (.bool b) place above := by
  obtain ⟨config, hconfig, rfl⟩ := stepConfig_eq_ok_iff.mp hs
  obtain ⟨v, hv⟩ : ∃ v, Assoc.get? ((bare stage step).mixed ds env) key = some v := by
    have hkey : key ∈ Assoc.keys config := Assoc.mem_keys_iff.mpr ⟨_, Assoc.mem_of_get? hb⟩
    rw [Template.keys_interpolateMapping hconfig] at hkey
    exact Option.ne_none_iff_exists'.mp (Assoc.get?_ne_none_iff.mpr hkey)
  obtain ⟨w, hw, hget⟩ := Template.get?_interpolateMapping hconfig hv
  obtain rfl : w = .bool b := Option.some.inj (hget.symm.trans hb)
  -- a text stays a text when its references are resolved
  have hbool : v = .bool b := by
    cases v with
    | string text =>
      obtain ⟨resolved, -, htext⟩ := map_eq_ok_iff.mp hw
      cases htext
    | _ => exact Except.ok.inj hw
  rw [get?_mixed, hbool] at hv
  obtain ⟨below, hvalues⟩ := Value.exists_eq_concat_of_layered? rfl hv
  obtain ⟨place, above, hstands, hspeaks, hsilent⟩ := exists_suffix_of_filterMap_concat hvalues
  exact ⟨place, above, hstands, hspeaks, hsilent⟩

end Request

/-! ### What metadata have to provide for -/

/-- **Metadata provide for what a section says under a name**, with certain places above it. -/
structure Metadata.Provides (m : Metadata) (r : Request) (env : Environment) (key : String)
    (s : Scope) (above : List SettingPlace) : Prop where
  /-- The scope of the section may set the name. -/
  listed : key ∈ m.filters.scope s
  /-- No parameter that the scope may set has the name as a plain alias, unless the name is that of a
  parameter itself. -/
  current : ∀ p ∈ m.parameters, p.name ∈ m.filters.scope s →
    ∀ a ∈ p.aliases, a.isFlat = true → a.name = key → ∃ q ∈ m.parameters, q.name = key
  /-- Nothing above the section has a value. -/
  silent : ∀ q ∈ above, (r.withMetadata m).valueAt? env key q = none

namespace Request

variable {r : Request} {m : Metadata} {ds : DocumentSet} {env : Environment} {s : StepConfig}
  {key stage step : String} {v : Value} {place : SettingPlace} {above : List SettingPlace}
  {scope : Scope}

theorem valueAt?_section (hscope : place.scope? = some scope) :
    r.valueAt? env key place
      = r.sectionValue? (r.filters.scope scope) (place.section? r.stage r.step) key := by
  cases place <;> cases hscope <;> rfl

/-- **What a section says gets through** exactly if the metadata provide for it. -/
theorem LastWord.withMetadata_iff (h : (bare stage step).LastWord ds env key v place above)
    (hv : v.isNull = false) (hscope : place.scope? = some scope) :
    ((bare stage step).withMetadata m).LastWord ds env key v place above ↔
      m.Provides (bare stage step) env key scope above := by
  have hne := SettingPlace.scope?_ne_env hscope
  obtain ⟨x, hx, hget⟩ : ∃ x, place.section? stage step = some x ∧ Assoc.get? x key = some v := by
    rw [← Option.bind_eq_some_iff, ← valueAt?_bare, h.speaks]
  have hvalue : ((bare stage step).withMetadata m).valueAt? env key place
      = if key ∈ m.filters.scope scope
        then Assoc.get? (applyAliases m.parameters (m.filters.scope scope) x).1 key else none := by
    rw [valueAt?_section hscope]
    change (if Mapping.admits (m.filters.scope scope) key = true
      then (place.section? stage step).bind _ else none) = _
    rw [hx, Option.bind_some]
    exact if_congr (Metadata.admits_scope_iff hne) rfl rfl
  have hkept := get?_applyAliases_iff hget hv m.parameters (m.filters.scope scope)
  constructor
  · intro hm
    have hspeaks := hm.speaks
    rw [hvalue, Option.ite_none_right_eq_some] at hspeaks
    obtain ⟨hlisted, haliased⟩ := hspeaks
    refine ⟨hlisted, fun p hp hname a ha hflat hkey => hkept.mp haliased ?_, hm.silent⟩
    refine mem_flatAliases.mpr ⟨p, List.mem_filter.mpr ⟨hp, ?_⟩, a, ha, hflat, hkey⟩
    exact (Metadata.admits_scope_iff hne).mpr hname
  · intro hm
    refine ⟨h.stands, ?_, hm.silent⟩
    rw [hvalue, if_pos hm.listed, hkept]
    intro hflat
    obtain ⟨p, hp, a, ha, haflat, haname⟩ := mem_flatAliases.mp hflat
    obtain ⟨hparameter, hadmits⟩ := List.mem_filter.mp hp
    exact hm.current p hparameter ((Metadata.admits_scope_iff hne).mp hadmits) a ha haflat haname

/-- A name that no list has is not in the configuration. -/
theorem get?_of_not_mem_all (hkey : key ∉ m.filters.all)
    (hs : (r.withMetadata m).stepConfig ds env = .ok s) : s.get? key = none := by
  obtain ⟨config, hconfig, rfl⟩ := stepConfig_eq_ok_iff.mp hs
  refine Assoc.get?_eq_none_iff.mpr fun hmem => hkey ?_
  change key ∈ Assoc.keys config at hmem
  rw [Template.keys_interpolateMapping hconfig] at hmem
  rcases mem_keys_fillConditionals hmem with hmixed | ⟨p, hp, rfl⟩
  · exact mem_all_of_mem_mixed hmixed
  · exact Metadata.name_mem_all hp

end Request

/-! ### Configurations from documents -/

namespace DocumentStepConfigs

variable {d : DocumentStepConfigs} {m config : Mapping} {stage step key : String} {b : Bool}

theorem get?_putNew_iff {name : String} {v w : Value} (hne : w ≠ v) :
    Assoc.get? (putNew m name w) key = some v ↔ Assoc.get? m key = some v := by
  rw [putNew]
  split
  · rfl
  · rename_i hnew
    rw [Assoc.get?_insert]
    by_cases hkey : name = key
    · have hnone : Assoc.get? m key = none := by
        rw [← hkey]
        simpa [Assoc.contains] using hnew
      simp [hkey, hnone, hne]
    · rw [if_neg hkey]

/-- The sections that are added are no truth values, and replace none. -/
theorem get?_attachSections_iff (project : ConfigDocument) :
    Assoc.get? (attachSections project m) key = some (.bool b) ↔
      Assoc.get? m key = some (.bool b) := by
  rw [attachSections, get?_putNew_iff (by rw [ConfigDocument.sectionsValue]; nofun),
    get?_putNew_iff (by rw [ConfigDocument.sectionsValue]; nofun), get?_putNew_iff (by nofun)]

theorem stepConfig_eq_ok_iff : d.stepConfig stage step = .ok config ↔
    ∃ s, (d.request stage step).stepConfig d.documents d.env = .ok s ∧
      config = attachSections d.documents.project s.config := by
  rw [stepConfig]
  rcases (d.request stage step).stepConfig d.documents d.env with e | s
  · simp [bind, Except.bind]
  · simp [bind, Except.bind, eq_comm]

theorem request_of_unknown (h : Assoc.get? d.metadata step = none) :
    d.request stage step = Request.bare stage step := by
  rw [request, h]

theorem request_withMetadata (d : DocumentStepConfigs) (m : Metadata) (stage : String) :
    (d.withMetadata m).request stage m.name = (Request.bare stage m.name).withMetadata m := by
  have hknown : Assoc.get? (d.withMetadata m).metadata m.name = some m := by
    change Assoc.get? (Assoc.insert d.metadata m.name m) m.name = some m
    rw [Assoc.get?_insert, if_pos rfl]
  rw [request, hknown]

end DocumentStepConfigs

/-! ### Steps of a stage condition document -/

namespace StageDocument

variable {doc : StageDocument} {w : Surroundings} {configs : StepConfigs} {before after : RunConfig}
  {stage step : String} {cs : List Condition}

theorem verdictOn_of_bool {config : Mapping} (hconfig : configs stage step = .ok config) {b : Bool}
    (hb : Assoc.get? config step = some (.bool b)) (cs : List Condition) :
    verdictOn w configs stage step cs = .ok (if b then none else some .explicit) := by
  simp only [verdictOn, hconfig, hb]

theorem verdictOn_of_ne_bool {config : Mapping} (hconfig : configs stage step = .ok config)
    (hne : ∀ b, Assoc.get? config step ≠ some (.bool b)) (cs : List Condition) :
    verdictOn w configs stage step cs = Condition.verdict (w.check step config) cs := by
  simp only [verdictOn, hconfig]

/-- **What is known of a listed step** after an evaluation is the verdict on it, whatever was known
before it. -/
theorem known_of_listed (hdoc : doc.Distinct)
    (hafter : before.evaluate (.conditions doc) w configs = .ok after)
    (hlisted : (stage, step, cs) ∈ doc.listings) :
    ∃ reason?, verdictOn w configs stage step cs = .ok reason? ∧
      after.stepActive? stage step = some reason?.isNone ∧
      (reason?.isSome → after.reason? stage step = reason?) := by
  rw [RunConfig.evaluate_eq] at hafter
  obtain ⟨h, hh, rfl⟩ := map_eq_ok_iff.mp hafter
  have hd := (hdoc.conditions w).verdicts hh
  obtain ⟨vs, hvs, reason?, hreason, hverdict⟩ : ∃ vs, (stage, vs) ∈ h ∧
      ∃ reason?, (step, reason?) ∈ vs ∧ verdictOn w configs stage step cs = .ok reason? := by
    obtain ⟨⟨stage', steps⟩, hstage, hmem⟩ := List.mem_flatMap.mp hlisted
    obtain ⟨⟨step', cs'⟩, hstep, he⟩ := List.mem_map.mp hmem
    cases he
    rw [← decide_eq_verdictOn]
    exact (StageDefinition.lists_iff_mem_verdicts hh).mp (.conditions hstage hstep)
  have hnodup : (Assoc.keys vs).Nodup := hd.steps _ hvs
  refine ⟨reason?, hverdict, ?_, fun hsome => ?_⟩
  · rw [RunConfig.stepActive?_of_last? (hd.last? hvs), Assoc.last?_of_mem hnodup hreason]
    rfl
  · obtain ⟨reason, rfl⟩ := Option.isSome_iff_exists.mp hsome
    have hmem : (step, reason) ∈ vs.reasons := Verdicts.mem_reasons.mpr hreason
    have hwith := History.last?_withReasons (hd.last? hvs) (List.ne_nil_of_mem hmem)
    rw [RunConfig.reason?_of_last? hwith]
    obtain ⟨reason', hlast⟩ := Assoc.exists_last?_of_mem hmem
    have hsame := (Assoc.last?_of_mem hnodup hreason).symm.trans
      (Assoc.last?_of_mem hnodup (Verdicts.mem_reasons.mp (Assoc.mem_of_last? hlast)))
    exact hlast.trans (Option.some.inj hsame).symm

/-- **Registering metadata and explicit activation.** A step that is activated explicitly without
metadata is so by the last word of some section. If its metadata provide for that section, the step
is decided on by the same truth value as before, whatever its conditions are. If no list of the
metadata has the name of the step, the configuration has no value under it any more, and the
conditions decide. -/
theorem explicit_withMetadata (hdoc : doc.Distinct) {d : DocumentStepConfigs} {m : Metadata}
    (hunknown : Assoc.get? d.metadata m.name = none) (hlisted : (stage, m.name, cs) ∈ doc.listings)
    {config : Mapping} (hconfig : d.stepConfig stage m.name = .ok config) {b : Bool}
    (hexplicit : Assoc.get? config m.name = some (.bool b))
    (hafter : before.evaluate (.conditions doc) w (d.withMetadata m).stepConfig = .ok after) :
    (∃ place above scope, place.scope? = some scope ∧
      (Request.bare stage m.name).LastWord d.documents d.env m.name (.bool b) place above) ∧
    (∀ place above scope, place.scope? = some scope →
      (Request.bare stage m.name).LastWord d.documents d.env m.name (.bool b) place above →
      m.Provides (Request.bare stage m.name) d.env m.name scope above →
        (∀ cs', verdictOn w (d.withMetadata m).stepConfig stage m.name cs'
          = .ok (if b then none else some .explicit)) ∧
        after.stepActive? stage m.name = some b ∧
        (b = false → after.reason? stage m.name = some .explicit)) ∧
    (m.name ∉ m.filters.all →
      ∃ config' reason?, (d.withMetadata m).stepConfig stage m.name = .ok config' ∧
        Condition.verdict (w.check m.name config') cs = .ok reason? ∧
        after.stepActive? stage m.name = some reason?.isNone ∧
        (reason?.isSome → after.reason? stage m.name = reason?)) := by
  obtain ⟨reason?, hverdict, hactive, hreason⟩ := known_of_listed hdoc hafter hlisted
  -- a step without a configuration would have no verdict
  obtain ⟨config', hconfig'⟩ :
      ∃ config', (d.withMetadata m).stepConfig stage m.name = .ok config' := by
    rw [verdictOn] at hverdict
    rcases hconfig' : (d.withMetadata m).stepConfig stage m.name with e | config'
    · rw [hconfig'] at hverdict
      cases hverdict
    · exact ⟨config', rfl⟩
  obtain ⟨s', hs', rfl⟩ := DocumentStepConfigs.stepConfig_eq_ok_iff.mp hconfig'
  rw [DocumentStepConfigs.request_withMetadata] at hs'
  refine ⟨?byLastWord, fun place above scope hscope hlast hm => ?provided, fun hkey => ?unlisted⟩
  case byLastWord =>
    obtain ⟨s, hs, rfl⟩ := DocumentStepConfigs.stepConfig_eq_ok_iff.mp hconfig
    rw [DocumentStepConfigs.request_of_unknown hunknown] at hs
    have hget := (DocumentStepConfigs.get?_attachSections_iff _).mp hexplicit
    obtain ⟨place, above, hlast⟩ := Request.exists_lastWord hs hget
    obtain ⟨scope, hscope⟩ := hlast.exists_scope
    exact ⟨place, above, scope, hscope, hlast⟩
  case provided =>
    have hget := ((hlast.withMetadata_iff rfl hscope).mpr hm).get? (Value.plain_bool b) hs'
    have hattached := (DocumentStepConfigs.get?_attachSections_iff d.documents.project).mpr hget
    have hany := verdictOn_of_bool (w := w) hconfig' hattached
    obtain rfl : (if b then none else some .explicit) = reason? :=
      Except.ok.inj ((hany cs).symm.trans hverdict)
    refine ⟨hany, ?_, ?_⟩
    · rw [hactive]
      cases b <;> rfl
    · rintro rfl
      exact hreason rfl
  case unlisted =>
    have hget := Request.get?_of_not_mem_all hkey hs'
    refine ⟨_, reason?, hconfig', ?_, hactive, hreason⟩
    rw [← hverdict, verdictOn_of_ne_bool hconfig']
    intro b' hb'
    have hunset := hget.symm.trans ((DocumentStepConfigs.get?_attachSections_iff _).mp hb')
    cases hunset

/-- A parameter of the general scope that has the name of the step is all that it takes: a general
setting keeps the step from being active, and no condition is looked at, known or not. -/
theorem explicit_withMetadata_general :
    let doc : StageDocument := ⟨[("Build", [("scan", [⟨"no-such", []⟩])])]⟩
    let off : ConfigDocument := { ConfigDocument.empty with general := [("scan", .bool false)] }
    let d := DocumentStepConfigs.ofDocuments (.ofProject off) (fun _ => none)
    let m := Metadata.plain "scan" [{ Parameter.plain "scan" with scopes := [.general] }]
    doc.Distinct ∧ ∃ after,
      RunConfig.empty.evaluate (.conditions doc) .bare (d.withMetadata m).stepConfig = .ok after ∧
      after.stepActive? "Build" "scan" = some false ∧
      after.reason? "Build" "scan" = some .explicit := by
  intro doc off d m
  have hdoc : doc.Distinct := by
    refine ⟨List.nodup_singleton _, fun s hs => ?_⟩
    rw [List.mem_singleton.mp hs]
    exact List.nodup_singleton _
  have hlast : (Request.bare "Build" "scan").LastWord d.documents d.env "scan" (.bool false)
      (.general off) [.step off, .stage off, .environment, .json, .flags] := by
    refine ⟨⟨[.defaults], rfl⟩, rfl, ?_⟩
    simp only [List.forall_mem_cons, List.not_mem_nil]
    exact ⟨rfl, rfl, rfl, rfl, rfl, nofun⟩
  have hm : m.Provides (Request.bare "Build" "scan") d.env "scan" .general
      [.step off, .stage off, .environment, .json, .flags] := by
    refine ⟨by decide, fun p hp _ a ha => ?_, ?_⟩
    · obtain rfl := List.mem_singleton.mp hp
      cases ha
    · simp only [List.forall_mem_cons, List.not_mem_nil]
      exact ⟨rfl, rfl, rfl, rfl, rfl, nofun⟩
  have hheld : (d.stepConfig "Build" "scan").map
      (fun config => (Assoc.get? config "scan").bind Value.asBool?) = .ok (some false) := by
    decide +kernel
  obtain ⟨config, hconfig, hbool⟩ := map_eq_ok_iff.mp hheld
  have hexplicit : Assoc.get? config "scan" = some (.bool false) := by
    obtain ⟨v, hv, hb⟩ := Option.bind_eq_some_iff.mp hbool
    cases v <;> cases hb
    exact hv
  have hevaluated : (RunConfig.empty.evaluate (.conditions doc) .bare
      (d.withMetadata m).stepConfig).map (fun _ => ()) = .ok () := by
    decide +kernel
  obtain ⟨after, hafter, -⟩ := map_eq_ok_iff.mp hevaluated
  obtain ⟨-, hprovided, -⟩ := explicit_withMetadata (m := m) hdoc rfl List.mem_cons_self hconfig
    hexplicit hafter
  obtain ⟨-, hactive, hreason⟩ := hprovided _ _ _ rfl hlast hm
  exact ⟨hdoc, after, hafter, hactive, hreason rfl⟩

/-- **An explicit activation may be lost**, in four ways. A step is kept from being active in the
general settings, and once its metadata are known it is active: because no list has its name; because
a variable sets the parameter of that name; because the section of the step has the value true under
an alias of that parameter; because its name is an alias of another parameter. -/
theorem explicit_lost :
    let doc : StageDocument := ⟨[("Build", [("scan", [])])]⟩
    let off : ConfigDocument := { ConfigDocument.empty with general := [("scan", .bool false)] }
    let offBelow : ConfigDocument := { off with steps := [("scan", [("check", .bool true)])] }
    let unset : Environment := fun _ => none
    let yes : Environment := fun name => if name = "PIPER_scan" then some "yes" else none
    let scan : Parameter := { Parameter.plain "scan" with scopes := [.general, .steps] }
    let named : Metadata := Metadata.plain "scan" [scan]
    let aliased : Metadata := Metadata.plain "scan" [{ scan with aliases := [⟨"check", false⟩] }]
    let renamed : Metadata :=
      { Metadata.plain "scan" [{ scan with name := "check", aliases := [⟨"scan", false⟩] }] with
        secrets := [⟨"scan", "", "", []⟩] }
    let held (d : DocumentStepConfigs) : Except ConfigError (Option Bool) :=
      (d.stepConfig "Build" "scan").map
        (fun config => (Assoc.get? config "scan").bind Value.asBool?)
    let known (d : DocumentStepConfigs) : Except ConditionError (Option Bool × Option Deactivation) :=
      (RunConfig.empty.evaluate (.conditions doc) .bare d.stepConfig).map
        (fun r => (r.stepActive? "Build" "scan", r.reason? "Build" "scan"))
    let loses (project : ConfigDocument) (env : Environment) (m : Metadata) : Prop :=
      let d := DocumentStepConfigs.ofDocuments (.ofProject project) env
      held d = .ok (some false) ∧ known d = .ok (some false, some .explicit) ∧
      known (d.withMetadata m) = .ok (some true, none)
    loses off unset (Metadata.plain "scan" []) ∧ loses off yes named ∧
    loses offBelow unset aliased ∧ loses off unset renamed := by
  decide +kernel

end StageDocument

end PipelineConfig
