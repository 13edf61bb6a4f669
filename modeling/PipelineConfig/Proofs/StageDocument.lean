import PipelineConfig.Proofs.Decoding
import PipelineConfig.Proofs.Reasons

/-!
# What a stage condition document means

A stage condition document has a meaning that does not mention how it is evaluated. Each step of a
stage has a verdict of its own (`PipelineConfig.StageDocument.verdictOn`), which depends on nothing
but the configuration of the step and its conditions:

* without a configuration there is no verdict, and the error says why;
* a truth value that the configuration holds under the name of the step is the verdict;
* otherwise **the first condition that does not hold** decides, be it that it fails or that it
  answers no; conditions behind it do not matter (`PipelineConfig.Condition.verdict_append`).

An evaluation collects these verdicts and does nothing else. It fails with the error of the first
step in document order that has no verdict; and if every step has one, it lists all stages and steps
of the document in the order of the document, with the reasons of those steps that are not active
(`PipelineConfig.StageDocument.evaluate_conditions`).

The order of a document makes sense because no name occurs twice in it. That is so for every
document that is read (`PipelineConfig.StageDocument.distinct_of_ofText`): a stage or a step that a
text has twice is in the document once.
-/

namespace PipelineConfig

/-! ### The verdict of conditions -/

namespace Condition

/-- **The first condition that does not hold decides**: by its error, or as the reason why the step
is not active. -/
def verdict (check : Condition → Verdict) (cs : List Condition) : StepVerdict :=
  match cs.find? (fun c => check c ≠ .ok true) with
  | some c => (check c).map (fun _ => some (.condition c.ref))
  | none => .ok none

variable {check : Condition → Verdict} {c : Condition}

theorem verdict_cons_of_holds (hc : check c = .ok true) (cs : List Condition) :
    verdict check (c :: cs) = verdict check cs := by
  rw [verdict, List.find?_cons_of_neg (by simp [hc]), verdict]

theorem verdict_cons_of_ne (hc : check c ≠ .ok true) (cs : List Condition) :
    verdict check (c :: cs) = (check c).map (fun _ => some (.condition c.ref)) := by
  rw [verdict, List.find?_cons_of_pos (by simp [hc])]

/-- **Conditions behind one that does not hold do not matter.** -/
theorem verdict_append (hc : check c ≠ .ok true) (before after after' : List Condition) :
    verdict check (before ++ c :: after) = verdict check (before ++ c :: after') := by
  induction before with
  | nil => rw [List.nil_append, List.nil_append, verdict_cons_of_ne hc, verdict_cons_of_ne hc]
  | cons b before ih =>
    rw [List.cons_append, List.cons_append]
    by_cases hb : check b = .ok true
    · rw [verdict_cons_of_holds hb, verdict_cons_of_holds hb, ih]
    · rw [verdict_cons_of_ne hb, verdict_cons_of_ne hb]

end Condition

/-- To look at one condition after the other is to find the first that does not hold. -/
theorem Registry.firstUnmet?_eq (r : Registry) (step : String) (config : Mapping) (glob : Glob)
    (openFile : OpenFile) (cs : List Condition) :
    r.firstUnmet? step config glob openFile cs
      = Condition.verdict (fun c => r.evaluate c step config glob openFile) cs := by
  induction cs with
  | nil => rfl
  | cons c cs ih =>
    rw [firstUnmet?]
    rcases hc : r.evaluate c step config glob openFile with e | holds
    · rw [Condition.verdict_cons_of_ne (by simp [hc]), hc]
      rfl
    · cases holds with
      | true =>
        rw [Condition.verdict_cons_of_holds hc, ← ih]
        rfl
      | false =>
        rw [Condition.verdict_cons_of_ne (by simp [hc]), hc]
        rfl

/-! ### The verdict on a step -/

/-- What a condition of a step answers. -/
def Surroundings.check (w : Surroundings) (step : String) (config : Mapping) (c : Condition) :
    Verdict :=
  w.registry.evaluate c step config w.glob w.openFile

namespace StageDocument

/-- **The verdict on a step of a stage**, by its configuration and its conditions. -/
def verdictOn (w : Surroundings) (configs : StepConfigs) (stage step : String)
    (cs : List Condition) : StepVerdict :=
  match configs stage step with
  | .error cause => .error (.noConfig step cause)
  | .ok config =>
    match Assoc.get? config step with
    | some (.bool active) => .ok (if active then none else some .explicit)
    | _ => Condition.verdict (w.check step config) cs

/-- The steps of a document, in document order: stage, name and conditions of each. -/
def listings (d : StageDocument) : List (String × String × List Condition) :=
  d.stages.flatMap (fun s => s.2.map (fun t => (s.1, t.1, t.2)))

/-- No stage occurs twice, and no step occurs twice in a stage. -/
structure Distinct (d : StageDocument) : Prop where
  stages : (Assoc.keys d.stages).Nodup
  steps : ∀ s ∈ d.stages, (Assoc.keys s.2).Nodup

/-- A definition has distinct names if its document has. -/
theorem Distinct.conditions {d : StageDocument} (hd : d.Distinct) (w : Surroundings) :
    (StageDefinition.conditions d).Distinct w := by
  constructor
  · rw [StageDefinition.candidates, Assoc.keys, List.map_map]
    exact hd.stages
  · intro s hs
    obtain ⟨t, ht, rfl⟩ := List.mem_map.mp hs
    rw [List.map_map]
    exact hd.steps t ht

variable (w : Surroundings) (configs : StepConfigs)

theorem decide_eq_verdictOn (stage step : String) (cs : List Condition) :
    Candidate.decide ⟨step, fun config =>
      w.registry.deactivation? step cs config w.glob w.openFile⟩ configs stage
        = verdictOn w configs stage step cs := by
  rw [Candidate.decide, verdictOn]
  rcases configs stage step with e | config
  · rfl
  · simp only [Registry.deactivation?, Registry.firstUnmet?_eq]
    rcases Assoc.get? config step with _ | v
    · rfl
    · cases v with
      | bool active => cases active <;> rfl
      | _ => rfl

/-! ### All verdicts, in document order -/

/-- The verdicts on the steps of a stage, or the first error. -/
def verdictsOn (stage : String) (steps : List (String × List Condition)) :
    Except ConditionError Verdicts :=
  steps.mapM (fun t =>
    (verdictOn w configs stage t.1 t.2).map (fun reason? => (t.1, reason?)))

variable (d : StageDocument)

theorem verdicts_conditions :
    (StageDefinition.conditions d).verdicts w configs
      = d.stages.mapM (fun s => (verdictsOn w configs s.1 s.2).map (fun vs => (s.1, vs))) := by
  rw [StageDefinition.verdicts, StageDefinition.candidates, List.mapM_map]
  congr 1
  funext s
  change (Candidate.verdicts configs s.1 (s.2.map _)).map _ = _
  rw [Candidate.verdicts, List.mapM_map, verdictsOn]
  simp only [Function.comp_def, decide_eq_verdictOn]

/-- **The first step without a verdict** is the one whose error ends an evaluation. -/
theorem errorOf?_verdicts :
    errorOf? ((StageDefinition.conditions d).verdicts w configs)
      = d.listings.findSome? (fun l => errorOf? (verdictOn w configs l.1 l.2.1 l.2.2)) := by
  rw [StageDefinition.errorOf?_verdicts, StageDefinition.candidates, List.findSome?_map, listings,
    findSome?_flatMap]
  simp only [List.findSome?_map, Function.comp_def, decide_eq_verdictOn]

/-- Which steps of a stage are active. -/
def activityOn (stage : String) (steps : List (String × List Condition)) : List (String × Bool) :=
  steps.map (fun t => (t.1, verdictOn w configs stage t.1 t.2 = .ok none))

/-- The reasons of those steps of a stage that are not active. -/
def reasonsOn (stage : String) (steps : List (String × List Condition)) :
    List (String × Deactivation) :=
  steps.filterMap (fun t =>
    (verdictOn w configs stage t.1 t.2).toOption.join.map (fun reason => (t.1, reason)))

variable {w configs d} {stage : String} {steps : List (String × List Condition)} {vs : Verdicts}

theorem activity_eq_activityOn (h : verdictsOn w configs stage steps = .ok vs) :
    vs.activity = activityOn w configs stage steps := by
  refine map_of_mapM_eq_ok h fun t ht v hv => ?_
  obtain ⟨reason?, hverdict, rfl⟩ := map_eq_ok_iff.mp hv
  rw [hverdict]
  cases reason? <;> simp

theorem reasons_eq_reasonsOn (h : verdictsOn w configs stage steps = .ok vs) :
    vs.reasons = reasonsOn w configs stage steps := by
  refine filterMap_of_mapM_eq_ok h fun t ht v hv => ?_
  obtain ⟨reason?, hverdict, rfl⟩ := map_eq_ok_iff.mp hv
  rw [hverdict]
  rfl

theorem keys_activityOn : Assoc.keys (activityOn w configs stage steps) = Assoc.keys steps := by
  rw [activityOn, Assoc.keys, List.map_map]
  rfl

/-- The reasons stand in the order of the steps. -/
theorem keys_reasonsOn_sublist :
    (Assoc.keys (reasonsOn w configs stage steps)).Sublist (Assoc.keys steps) := by
  induction steps with
  | nil => exact .slnil
  | cons t steps ih =>
    rw [reasonsOn, List.filterMap_cons]
    rcases (verdictOn w configs stage t.1 t.2).toOption.join with _ | reason
    · exact ih.cons t.1
    · exact ih.cons_cons t.1

/-! ### The evaluation of a document -/

theorem runSteps_recordAll (hd : d.Distinct) {h : History}
    (hh : (StageDefinition.conditions d).verdicts w configs = .ok h) :
    (RunConfig.empty.recordAll h).runSteps
      = d.stages.map (fun s => (s.1, activityOn w configs s.1 s.2)) := by
  rw [verdicts_conditions] at hh
  have hlist : h.map (fun s => (s.1, Assoc.setAll [] s.2.activity))
      = d.stages.map (fun s => (s.1, activityOn w configs s.1 s.2)) := by
    refine map_of_mapM_eq_ok hh fun s hs s' hs' => ?_
    obtain ⟨vs, hvs, rfl⟩ := map_eq_ok_iff.mp hs'
    rw [activity_eq_activityOn hvs, Assoc.setAll_nil_of_nodup]
    rw [keys_activityOn]
    exact hd.steps s hs
  rw [RunConfig.recordAll_runSteps, hlist]
  refine Assoc.setAll_nil_of_nodup ?_
  rw [Assoc.keys, List.map_map]
  exact hd.stages

/-- Only stages with a step that is not active have reasons. -/
theorem deactivations_recordAll (hd : d.Distinct) {h : History}
    (hh : (StageDefinition.conditions d).verdicts w configs = .ok h) :
    (RunConfig.empty.recordAll h).deactivations
      = (d.stages.map (fun s => (s.1, reasonsOn w configs s.1 s.2))).filter
          (fun s => !s.2.isEmpty) := by
  rw [verdicts_conditions] at hh
  have hlist : h.map (fun s => (s.1, Assoc.setAll [] s.2.reasons))
      = d.stages.map (fun s => (s.1, reasonsOn w configs s.1 s.2)) := by
    refine map_of_mapM_eq_ok hh fun s hs s' hs' => ?_
    obtain ⟨vs, hvs, rfl⟩ := map_eq_ok_iff.mp hs'
    rw [reasons_eq_reasonsOn hvs, Assoc.setAll_nil_of_nodup]
    exact (hd.steps s hs).sublist keys_reasonsOn_sublist
  have hfilter : h.withReasons.map (fun s => (s.1, Assoc.setAll [] s.2.reasons))
      = (h.map (fun s => (s.1, Assoc.setAll [] s.2.reasons))).filter (fun s => !s.2.isEmpty) := by
    rw [History.withReasons, List.filter_map]
    simp only [Function.comp_def, Assoc.isEmpty_setAll_nil]
  rw [RunConfig.recordAll_deactivations, hfilter, hlist]
  refine Assoc.setAll_nil_of_nodup (List.Nodup.sublist (List.filter_sublist.map _) ?_)
  rw [List.map_map]
  exact hd.stages

/-- **What a stage condition document means.** The first evaluation fails exactly when some step has
no verdict, with the error of the first such step. Otherwise it lists the stages and steps of the
document in its order, each with whether its verdict is that it is active, and the verdicts of the
others as reasons. No condition behind one that does not hold takes part in that. -/
theorem evaluate_conditions (hd : d.Distinct) (w : Surroundings) (configs : StepConfigs) :
    (∀ e, RunConfig.empty.evaluate (.conditions d) w configs = .error e ↔
      d.listings.findSome? (fun l => errorOf? (verdictOn w configs l.1 l.2.1 l.2.2)) = some e) ∧
    (∀ r, RunConfig.empty.evaluate (.conditions d) w configs = .ok r →
      r.runSteps = d.stages.map (fun s => (s.1, activityOn w configs s.1 s.2)) ∧
      r.deactivations = (d.stages.map (fun s => (s.1, reasonsOn w configs s.1 s.2))).filter
        (fun s => !s.2.isEmpty)) ∧
    (∀ stage step c,
      (∀ config, configs stage step = .ok config → w.check step config c ≠ .ok true) →
      ∀ before after after', verdictOn w configs stage step (before ++ c :: after)
        = verdictOn w configs stage step (before ++ c :: after')) := by
  rw [RunConfig.evaluate_eq]
  refine ⟨fun e => ?_, fun r hr => ?_, fun stage step c hc before after after' => ?_⟩
  · -- taking verdicts down cannot fail, so the error is one of the verdicts
    rw [← errorOf?_verdicts, ← errorOf?_map RunConfig.empty.recordAll, errorOf?_eq_some_iff]
  · obtain ⟨h, hh, rfl⟩ := map_eq_ok_iff.mp hr
    exact ⟨runSteps_recordAll hd hh, deactivations_recordAll hd hh⟩
  · rw [verdictOn, verdictOn]
    rcases hconfig : configs stage step with e | config
    · rfl
    · simp only [Condition.verdict_append (hc config hconfig) before after after']

/-- A condition that no registry knows does no harm behind one that answers no. -/
theorem evaluate_conditions_unknown_behind :
    let d : StageDocument :=
      ⟨[("Build", [("scan", [⟨"is-active", [⟨"activation", .text "false"⟩]⟩, ⟨"no-such", []⟩]),
        ("test", [])])]⟩
    let configs : StepConfigs := fun _ _ => .ok []
    d.Distinct ∧
    ∃ r, RunConfig.empty.evaluate (.conditions d) .bare configs = .ok r ∧
      r.runSteps = [("Build", [("scan", false), ("test", true)])] ∧
      r.deactivations = [("Build", [("scan", .condition "is-active")])] := by
  intro d configs
  have hd : d.Distinct := by
    refine ⟨List.nodup_singleton _, fun s hs => ?_⟩
    rw [List.mem_singleton.mp hs]
    decide
  obtain ⟨-, hok, -⟩ := evaluate_conditions hd .bare configs
  refine ⟨hd, _, rfl, ?_⟩
  exact hok _ rfl

/-! ### Documents that are read -/

theorem yields_stepsDecoder (levels : Nat) (node : Yaml.Node) :
    Yaml.Decoding.Yields (fun steps => (Assoc.keys steps).Nodup) (stepsDecoder levels node) := by
  have hnil : (Assoc.keys ([] : List (String × List Condition))).Nodup := List.nodup_nil
  refine Yaml.Decoder.yields_record (P := fun steps => (Assoc.keys steps).Nodup) hnil
    (fun levels steps name node _ => ?_) levels node
  refine Yaml.Decoding.yields_bind fun es => ?_
  exact Yaml.Decoding.yields_pure (Assoc.nodup_keys_ofListInOrder es)

theorem yields_decoder (levels : Nat) (node : Yaml.Node) :
    Yaml.Decoding.Yields Distinct (decoder levels node) := by
  refine Yaml.Decoder.yields_record ⟨List.nodup_nil, by simp⟩ (fun levels d name node _ => ?_)
    levels node
  refine (Yaml.Decoder.yields_entries yields_stepsDecoder levels node).bind fun es hes => ?_
  refine Yaml.Decoding.yields_pure ⟨Assoc.nodup_keys_ofListInOrder es, fun s hs => ?_⟩
  exact hes s (Assoc.mem_of_mem_ofListInOrder hs)

/-- **Every document that is read has distinct names**, however often the text repeats one. -/
theorem distinct_of_ofText {document text : String} {d : StageDocument}
    (h : ofText document text = .ok d) : d.Distinct := by
  rw [ofText] at h
  split at h
  · cases h
    exact ⟨List.nodup_nil, by simp⟩
  · split at h
    · rename_i hread
      cases h
      exact Yaml.Decoder.of_readText yields_decoder hread
    · cases h

/-- So a document that is read and evaluated once has reasons for those steps that are not active,
and for no others. -/
theorem reason?_iff_of_ofText {document text : String} {d : StageDocument}
    (hread : ofText document text = .ok d) {w : Surroundings} {configs : StepConfigs}
    {r : RunConfig} (hr : RunConfig.empty.evaluate (.conditions d) w configs = .ok r)
    (stage step : String) :
    (r.reason? stage step).isSome ↔ r.stepActive? stage step = some false :=
  RunConfig.reason?_iff_of_distinct ((distinct_of_ofText hread).conditions w) hr stage step

end StageDocument

end PipelineConfig
