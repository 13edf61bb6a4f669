import PipelineConfig.Pipeline.RunConfig
import PipelineConfig.Proofs.Assoc
import PipelineConfig.Proofs.FirstError

/-!
# Evaluations as a history of verdicts

`PipelineConfig.RunConfig.evaluate` decides on steps and takes the verdicts down as it goes. The two
are independent of each other: no verdict depends on what has been taken down before. So an
evaluation is first a list of verdicts (`PipelineConfig.StageDefinition.verdicts`), stage by stage
and step by step, and then a recording of that list (`PipelineConfig.RunConfig.recordAll`), and this
file takes it apart that way (`PipelineConfig.RunConfig.evaluate_eq`).

Several evaluations in a row record the concatenation of their lists, where one that fails
contributes nothing (`PipelineConfig.RunConfig.after_eq`). What is known in the end can then be read
off that one list:

* whether a step is active: by **the last verdict** on it in **the last listing** of its stage
  (`PipelineConfig.RunConfig.stepActive?_recordAll`);
* why a step is not active: by the last verdict *that has a reason*, in the last listing of its
  stage *in which any verdict has one* (`PipelineConfig.RunConfig.reason?_recordAll`).

The two questions are answered from different listings, and everything that can be surprising about
their answers comes from there.
-/

namespace PipelineConfig

/-- The verdicts on the steps of a stage, in the order in which the stage lists them. -/
abbrev Verdicts := List (String × Option Deactivation)

/-- The verdicts on the steps of stages, in the order in which the stages were decided on. -/
abbrev History := List (String × Verdicts)

namespace Verdicts

/-- Which of the steps are active. -/
def activity (vs : Verdicts) : List (String × Bool) :=
  vs.map (fun v => (v.1, v.2.isNone))

/-- The reasons of the verdicts that have one. -/
def reasons (vs : Verdicts) : List (String × Deactivation) :=
  vs.filterMap (fun v => v.2.map (fun reason => (v.1, reason)))

@[simp] theorem reasons_nil : reasons [] = [] := rfl

theorem reasons_cons (v : String × Option Deactivation) (vs : Verdicts) :
    reasons (v :: vs) = (v.2.map (fun reason => (v.1, reason))).toList ++ reasons vs := by
  rw [reasons, List.filterMap_cons, reasons]
  cases v.2 <;> rfl

theorem mem_reasons {vs : Verdicts} {step : String} {reason : Deactivation} :
    (step, reason) ∈ vs.reasons ↔ (step, some reason) ∈ vs := by
  rw [reasons, List.mem_filterMap]
  constructor
  · rintro ⟨⟨step', reason?⟩, hv, h⟩
    obtain ⟨reason', rfl, he⟩ := Option.map_eq_some_iff.mp h
    rw [Prod.mk.injEq] at he
    rw [← he.1, ← he.2]
    exact hv
  · intro h
    exact ⟨_, h, rfl⟩

/-- A step has a last reason exactly when some verdict on it has one. -/
theorem isSome_last?_reasons {vs : Verdicts} {step : String} :
    (Assoc.last? vs.reasons step).isSome ↔ ∃ reason, (step, some reason) ∈ vs := by
  rw [Option.isSome_iff_exists]
  constructor
  · rintro ⟨reason, h⟩
    exact ⟨reason, mem_reasons.mp (Assoc.mem_of_last? h)⟩
  · rintro ⟨reason, h⟩
    exact Assoc.exists_last?_of_mem (mem_reasons.mpr h)

end Verdicts

/-- Surroundings with nothing in them: the built-in conditions, no files, and a system of which
nothing is known. -/
def Surroundings.bare : Surroundings :=
  ⟨.builtin, fun _ => .ok [], fun _ => .error .notFound, .unknown, RuleCall.defaultRoot⟩

/-- The listings in which some verdict has a reason. -/
def History.withReasons (h : History) : History :=
  h.filter (fun s => !(Verdicts.reasons s.2).isEmpty)

/-- No stage has two listings, and no listing has two verdicts on one step. -/
structure History.Distinct (h : History) : Prop where
  stages : (Assoc.keys h).Nodup
  steps : ∀ s ∈ h, (Assoc.keys s.2).Nodup

/-- Where names are distinct, the last listing of a stage is any listing of it. -/
theorem History.Distinct.last? {h : History} (hd : h.Distinct) {stage : String} {vs : Verdicts}
    (hvs : (stage, vs) ∈ h) : Assoc.last? h stage = some vs :=
  Assoc.last?_of_mem hd.stages hvs

/-! ### One stage -/

/-- The verdicts on the steps of a stage, or the first error. -/
def Candidate.verdicts (configs : StepConfigs) (stage : String) (cs : List Candidate) :
    Except ConditionError Verdicts :=
  cs.mapM (fun c : Candidate => (c.decide configs stage).map (fun reason? => (c.step, reason?)))

/-- The verdicts on the steps of a stage fail with the first step that has none. -/
theorem Candidate.errorOf?_verdicts (configs : StepConfigs) (stage : String) (cs : List Candidate) :
    errorOf? (Candidate.verdicts configs stage cs)
      = cs.findSome? (fun c => errorOf? (c.decide configs stage)) := by
  rw [Candidate.verdicts, errorOf?_mapM]
  simp only [errorOf?_map]

theorem Candidate.keys_verdicts {configs : StepConfigs} {stage : String} {cs : List Candidate}
    {vs : Verdicts} (h : Candidate.verdicts configs stage cs = .ok vs) :
    Assoc.keys vs = cs.map Candidate.step := by
  refine map_of_mapM_eq_ok h fun c hc v hv => ?_
  obtain ⟨reason?, -, rfl⟩ := map_eq_ok_iff.mp hv
  rfl

namespace StageRun

/-- Take down verdicts, one after the other. -/
def recordAll (r : StageRun) (vs : Verdicts) : StageRun :=
  vs.foldl (fun r v => r.record v.1 v.2) r

@[simp] theorem recordAll_nil (r : StageRun) : r.recordAll [] = r := rfl

@[simp] theorem recordAll_cons (r : StageRun) (v : String × Option Deactivation) (vs : Verdicts) :
    r.recordAll (v :: vs) = (r.record v.1 v.2).recordAll vs := rfl

@[simp] theorem recordAll_name (r : StageRun) (vs : Verdicts) : (r.recordAll vs).name = r.name := by
  induction vs generalizing r with
  | nil => rfl
  | cons v vs ih => exact ih _

@[simp] theorem recordAll_steps (r : StageRun) (vs : Verdicts) :
    (r.recordAll vs).steps = Assoc.setAll r.steps vs.activity := by
  induction vs generalizing r with
  | nil => rfl
  | cons v vs ih => exact ih _

@[simp] theorem recordAll_reasons (r : StageRun) (vs : Verdicts) :
    (r.recordAll vs).reasons = Assoc.setAll r.reasons vs.reasons := by
  induction vs generalizing r with
  | nil => rfl
  | cons v vs ih =>
    obtain ⟨step, reason?⟩ := v
    rw [recordAll_cons, ih, Verdicts.reasons_cons, Assoc.setAll_append]
    cases reason? <;> rfl

/-- **Deciding on a stage** is to get all verdicts and then to take them down. -/
theorem decideAll_eq (configs : StepConfigs) (r : StageRun) (cs : List Candidate) :
    decideAll configs r cs = (Candidate.verdicts configs r.name cs).map r.recordAll := by
  induction cs generalizing r with
  | nil => rfl
  | cons c cs ih =>
    rw [decideAll, Candidate.verdicts, List.mapM_cons]
    rcases c.decide configs r.name with e | reason?
    · rfl
    · change decideAll configs (r.record c.step reason?) cs = _
      rw [ih, Candidate.verdicts]
      -- taking a verdict down does not change which stage the others are asked for
      change (cs.mapM (fun c : Candidate => (c.decide configs r.name).map _)).map _ = _
      rcases cs.mapM (fun c : Candidate => (c.decide configs r.name).map
        (fun reason? => (c.step, reason?))) with e | vs <;> rfl

end StageRun

/-! ### One evaluation -/

/-- **The verdicts of a definition**: on every step that is to be decided on, by stage and in
document order, or the first error. -/
def StageDefinition.verdicts (w : Surroundings) (configs : StepConfigs) (d : StageDefinition) :
    Except ConditionError History :=
  (d.candidates w).mapM (fun s => (Candidate.verdicts configs s.1 s.2).map (fun vs => (s.1, vs)))

/-- The first step without a verdict, in the first stage that has one, ends it. -/
theorem StageDefinition.errorOf?_verdicts (w : Surroundings) (configs : StepConfigs)
    (d : StageDefinition) :
    errorOf? (d.verdicts w configs) = (d.candidates w).findSome? (fun s =>
      s.2.findSome? (fun c => errorOf? (c.decide configs s.1))) := by
  rw [StageDefinition.verdicts, errorOf?_mapM]
  simp only [errorOf?_map, Candidate.errorOf?_verdicts]

theorem StageDefinition.keys_verdicts {w : Surroundings} {configs : StepConfigs}
    {d : StageDefinition} {h : History} (hh : d.verdicts w configs = .ok h) :
    Assoc.keys h = Assoc.keys (d.candidates w) := by
  refine map_of_mapM_eq_ok hh fun s hs s' hs' => ?_
  obtain ⟨vs, -, rfl⟩ := map_eq_ok_iff.mp hs'
  rfl

/-- No two stages have one reported name, and in no stage there are two steps of one name that are
to be decided on. -/
structure StageDefinition.Distinct (w : Surroundings) (d : StageDefinition) : Prop where
  stages : (Assoc.keys (d.candidates w)).Nodup
  steps : ∀ s ∈ d.candidates w, (s.2.map Candidate.step).Nodup

/-- Distinct names are all that is needed for distinct verdicts. -/
theorem StageDefinition.Distinct.verdicts {w : Surroundings} {configs : StepConfigs}
    {d : StageDefinition} (hd : d.Distinct w) {h : History} (hh : d.verdicts w configs = .ok h) :
    h.Distinct := by
  refine ⟨keys_verdicts hh ▸ hd.stages, fun s hs => ?_⟩
  obtain ⟨t, ht, hverdicts⟩ := (mem_iff_of_mapM_eq_ok hh s).mp hs
  obtain ⟨vs, hvs, rfl⟩ := map_eq_ok_iff.mp hverdicts
  exact Candidate.keys_verdicts hvs ▸ hd.steps t ht

namespace RunConfig

/-- Take down the verdicts of one stage after the other. -/
def recordAll (r : RunConfig) (h : History) : RunConfig :=
  h.foldl (fun r s => r.adopt ((StageRun.start s.1).recordAll s.2)) r

@[simp] theorem recordAll_nil (r : RunConfig) : r.recordAll [] = r := rfl

@[simp] theorem recordAll_cons (r : RunConfig) (s : String × Verdicts) (h : History) :
    r.recordAll (s :: h) = (r.adopt ((StageRun.start s.1).recordAll s.2)).recordAll h := rfl

theorem recordAll_append (r : RunConfig) (h h' : History) :
    r.recordAll (h ++ h') = (r.recordAll h).recordAll h' :=
  List.foldl_append

/-- **Evaluating** is to get all verdicts and then to take them down. -/
theorem evaluate_eq (r : RunConfig) (d : StageDefinition) (w : Surroundings)
    (configs : StepConfigs) :
    r.evaluate d w configs = (d.verdicts w configs).map r.recordAll := by
  have hruns : stageRuns configs (d.candidates w) = (d.verdicts w configs).map
      (List.map (fun s => (StageRun.start s.1).recordAll s.2)) := by
    rw [StageDefinition.verdicts, ← mapM_map, stageRuns]
    congr 1
    funext ⟨stage, cs⟩
    change (StageRun.start stage).decideAll configs cs = _
    rw [StageRun.decideAll_eq]
    change (Candidate.verdicts configs stage cs).map _ = _
    cases Candidate.verdicts configs stage cs <;> rfl
  rw [evaluate, hruns]
  rcases d.verdicts w configs with e | h
  · rfl
  · change Except.ok (List.foldl adopt r (h.map _)) = Except.ok _
    rw [List.foldl_map]
    rfl

/-! ### What a history leaves behind -/

theorem recordAll_runSteps (r : RunConfig) (h : History) :
    (r.recordAll h).runSteps
      = Assoc.setAll r.runSteps (h.map (fun s => (s.1, Assoc.setAll [] s.2.activity))) := by
  induction h generalizing r with
  | nil => rfl
  | cons s h ih =>
    rw [recordAll_cons, ih, List.map_cons, Assoc.setAll_cons]
    simp [adopt, StageRun.start]

/-- Only listings in which some verdict has a reason are taken over as reasons. -/
theorem recordAll_deactivations (r : RunConfig) (h : History) :
    (r.recordAll h).deactivations = Assoc.setAll r.deactivations
      (h.withReasons.map (fun s => (s.1, Assoc.setAll [] s.2.reasons))) := by
  rw [History.withReasons]
  induction h generalizing r with
  | nil => rfl
  | cons s h ih =>
    obtain ⟨stage, vs⟩ := s
    rw [recordAll_cons, ih, List.filter_cons]
    by_cases hvs : vs.reasons.isEmpty = true
    · simp [adopt, StageRun.start, Assoc.isEmpty_setAll_nil, hvs]
    · simp [adopt, StageRun.start, Assoc.isEmpty_setAll_nil, hvs]

/-- What is known of a stage with a listing is what the last of them says, whatever was known
before. -/
theorem stepActive?_of_last? {h : History} {stage : String} {vs : Verdicts}
    (hvs : Assoc.last? h stage = some vs) (r : RunConfig) (step : String) :
    (r.recordAll h).stepActive? stage step = (Assoc.last? vs step).map Option.isNone := by
  rw [stepActive?, recordAll_runSteps, Assoc.get?_setAll,
    Assoc.last?_mapValues (fun vs => Assoc.setAll [] (Verdicts.activity vs)), hvs]
  change Assoc.get? (Assoc.setAll [] (Verdicts.activity vs)) step = _
  rw [Assoc.get?_setAll, Assoc.get?_nil, Option.or_none, Verdicts.activity,
    Assoc.last?_mapValues Option.isNone]

/-- So are the reasons, but the last listing in which there are any is that which counts. -/
theorem reason?_of_last? {h : History} {stage : String} {vs : Verdicts}
    (hvs : Assoc.last? h.withReasons stage = some vs) (r : RunConfig) (step : String) :
    (r.recordAll h).reason? stage step = Assoc.last? vs.reasons step := by
  rw [reason?, recordAll_deactivations, Assoc.get?_setAll,
    Assoc.last?_mapValues (fun vs => Assoc.setAll [] (Verdicts.reasons vs)), hvs]
  change Assoc.get? (Assoc.setAll [] (Verdicts.reasons vs)) step = _
  rw [Assoc.get?_setAll, Assoc.get?_nil, Option.or_none]

variable (h : History) (stage step : String)

/-- **Whether a step is active** is decided by the last verdict on it in the last listing of its
stage. -/
theorem stepActive?_recordAll :
    (empty.recordAll h).stepActive? stage step
      = ((Assoc.last? h stage).bind (fun vs => Assoc.last? vs step)).map Option.isNone := by
  rw [stepActive?, recordAll_runSteps, Assoc.get?_setAll]
  change Option.bind ((Assoc.last? _ stage).or none) _ = _
  rw [Option.or_none, Assoc.last?_mapValues (fun vs => Assoc.setAll [] (Verdicts.activity vs)),
    Option.bind_map, Option.map_bind]
  congr 1
  funext vs
  rw [Function.comp_apply, Assoc.get?_setAll, Assoc.get?_nil, Option.or_none, Verdicts.activity,
    Assoc.last?_mapValues Option.isNone]
  rfl

/-- **Why a step is not active** is decided by the last verdict on it that has a reason, in the last
listing of its stage in which any verdict has one. -/
theorem reason?_recordAll :
    (empty.recordAll h).reason? stage step
      = (Assoc.last? h.withReasons stage).bind (fun vs => Assoc.last? vs.reasons step) := by
  rw [reason?, recordAll_deactivations, Assoc.get?_setAll]
  change Option.bind ((Assoc.last? _ stage).or none) _ = _
  rw [Option.or_none, Assoc.last?_mapValues (fun vs => Assoc.setAll [] (Verdicts.reasons vs)),
    Option.bind_map]
  congr 1
  funext vs
  rw [Function.comp_apply, Assoc.get?_setAll, Assoc.get?_nil, Option.or_none]

variable {h stage step}

theorem stepActive?_eq_some_iff {active : Bool} :
    (empty.recordAll h).stepActive? stage step = some active ↔
      ∃ vs, Assoc.last? h stage = some vs ∧
        ∃ v, Assoc.last? vs step = some v ∧ v.isNone = active := by
  rw [stepActive?_recordAll, Option.map_eq_some_iff]
  constructor
  · rintro ⟨v, hv, hactive⟩
    obtain ⟨vs, hvs, hstep⟩ := Option.bind_eq_some_iff.mp hv
    exact ⟨vs, hvs, v, hstep, hactive⟩
  · rintro ⟨vs, hvs, v, hstep, hactive⟩
    exact ⟨v, Option.bind_eq_some_iff.mpr ⟨vs, hvs, hstep⟩, hactive⟩

theorem stepActive?_eq_false_iff :
    (empty.recordAll h).stepActive? stage step = some false ↔
      ∃ vs, Assoc.last? h stage = some vs ∧ ∃ reason, Assoc.last? vs step = some (some reason) := by
  rw [stepActive?_eq_some_iff]
  constructor
  · rintro ⟨vs, hvs, v, hstep, hnone⟩
    obtain ⟨reason, rfl⟩ := Option.isSome_iff_exists.mp (Option.isNone_eq_false_iff.mp hnone)
    exact ⟨vs, hvs, reason, hstep⟩
  · rintro ⟨vs, hvs, reason, hstep⟩
    exact ⟨vs, hvs, some reason, hstep, rfl⟩

/-! ### Several evaluations in a row -/

/-- What is known after a further evaluation, which may fail and then changes nothing. -/
def attempt (r : RunConfig) (d : StageDefinition) (w : Surroundings) (configs : StepConfigs) :
    RunConfig :=
  match r.evaluate d w configs with
  | .ok r' => r'
  | .error _ => r

/-- What is known after evaluations in a row, from knowing nothing. The surroundings may change from
one evaluation to the next, and so may the configurations. -/
def after (d : StageDefinition) (calls : List (Surroundings × StepConfigs)) : RunConfig :=
  calls.foldl (fun r call => r.attempt d call.1 call.2) empty

end RunConfig

/-- The verdicts of evaluations in a row; one that fails has none. -/
def StageDefinition.history (d : StageDefinition) (calls : List (Surroundings × StepConfigs)) :
    History :=
  calls.flatMap (fun call => (d.verdicts call.1 call.2).toOption.getD [])

namespace RunConfig

theorem attempt_eq (r : RunConfig) (d : StageDefinition) (w : Surroundings)
    (configs : StepConfigs) :
    r.attempt d w configs = r.recordAll ((d.verdicts w configs).toOption.getD []) := by
  rw [attempt, evaluate_eq]
  cases d.verdicts w configs <;> rfl

/-- **Evaluations in a row record one history**: that of all their verdicts. -/
theorem after_eq (d : StageDefinition) (calls : List (Surroundings × StepConfigs)) :
    after d calls = empty.recordAll (d.history calls) := by
  have hfrom : ∀ r : RunConfig, calls.foldl (fun r call => r.attempt d call.1 call.2) r
      = r.recordAll (d.history calls) := by
    induction calls with
    | nil => exact fun r => rfl
    | cons call calls ih =>
      intro r
      rw [List.foldl_cons, ih, attempt_eq, ← recordAll_append]
      rfl
  exact hfrom empty

end RunConfig

end PipelineConfig
