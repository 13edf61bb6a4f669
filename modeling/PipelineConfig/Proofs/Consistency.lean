import PipelineConfig.Proofs.History

/-!
# What is known of the stages and of their steps agrees

A `PipelineConfig.RunConfig` keeps three maps by stage: which steps are active, whether any is, and
the reasons of those that are not. The second map could be computed from the first, but it is kept
beside it, and an evaluation writes all three, one write after the other and stage after stage.

Two things are shown of that, for evaluations in a row of which any may fail:

* **the maps agree** (`PipelineConfig.RunConfig.Consistent`): they know of the same stages, in the
  same order, and a stage is active exactly when one of its steps is. One stage that is taken over
  preserves this (`PipelineConfig.RunConfig.Consistent.adopt`), hence so does a history of verdicts,
  and what is known from knowing nothing is always such a history;
* **an evaluation that fails has written nothing**. For this the function that answers with what is
  known afterwards is of no use: where it fails there is no answer that could show a write. So the
  evaluation is spelled out as a program on a state that survives errors
  (`PipelineConfig.RunConfig.evaluateInPlace`). The state that a failed run of it leaves behind is
  the one that it began with, however many stages and steps had a verdict by then
  (`PipelineConfig.StageDefinition.FailsAt`), and a run that succeeds leaves behind what the
  function answers (`PipelineConfig.RunConfig.run_evaluateInPlace`).

`PipelineConfig.RunConfig.consistent_inPlace` puts the two together.
-/

namespace PipelineConfig

/-! ### Stages -/

namespace StageRun

/-- Where no step is listed twice, a stage is active exactly when a step of it is. -/
theorem isActive_iff {s : StageRun} (hs : (Assoc.keys s.steps).Nodup) :
    s.isActive = true ↔ ∃ step, Assoc.get? s.steps step = some true := by
  rw [isActive, List.any_eq_true]
  constructor
  · rintro ⟨⟨step, active⟩, hstep, hactive⟩
    obtain rfl : active = true := hactive
    exact ⟨step, Assoc.get?_of_mem hs hstep⟩
  · rintro ⟨step, hstep⟩
    exact ⟨(step, true), Assoc.mem_of_get? hstep, rfl⟩

/-- Verdicts that are taken down leave no step listed twice, even when two of them are on one
step. -/
theorem nodup_keys_steps (name : String) (vs : Verdicts) :
    (Assoc.keys ((start name).recordAll vs).steps).Nodup := by
  rw [recordAll_steps]
  exact Assoc.nodup_keys_setAll (m := []) List.nodup_nil vs.activity

end StageRun

namespace RunConfig

/-- **What is known of the stages agrees with what is known of their steps.** -/
structure Consistent (r : RunConfig) : Prop where
  /-- No stage is known twice. -/
  distinct : (Assoc.keys r.runSteps).Nodup
  /-- Both maps know of the same stages, in the same order. -/
  stages : Assoc.keys r.runStages = Assoc.keys r.runSteps
  /-- A stage is active exactly when some step of it is. -/
  active : ∀ stage,
    r.stageActive? stage = some true ↔ ∃ step, r.stepActive? stage step = some true

variable {r : RunConfig}

theorem stageActive?_adopt (r : RunConfig) (s : StageRun) (stage : String) :
    (r.adopt s).stageActive? stage
      = if s.name = stage then some s.isActive else r.stageActive? stage := by
  rw [stageActive?, adopt, Assoc.get?_set]
  rfl

theorem stepActive?_adopt (r : RunConfig) (s : StageRun) (stage step : String) :
    (r.adopt s).stepActive? stage step
      = if s.name = stage then Assoc.get? s.steps step else r.stepActive? stage step := by
  rw [stepActive?, adopt, Assoc.get?_set]
  split <;> rfl

theorem consistent_empty : empty.Consistent where
  distinct := List.nodup_nil
  stages := rfl
  active stage := by
    constructor
    · rintro ⟨⟩
    · rintro ⟨step, ⟨⟩⟩

/-- **A stage that is taken over preserves agreement**: both maps get an entry for it, at the same
place. -/
theorem Consistent.adopt (hr : r.Consistent) {s : StageRun} (hs : (Assoc.keys s.steps).Nodup) :
    (r.adopt s).Consistent where
  distinct := Assoc.nodup_keys_set hr.distinct s.name s.steps
  stages := by
    change Assoc.keys (Assoc.set r.runStages s.name s.isActive)
      = Assoc.keys (Assoc.set r.runSteps s.name s.steps)
    rw [Assoc.keys_set, Assoc.keys_set, hr.stages]
  active stage := by
    simp only [stageActive?_adopt, stepActive?_adopt]
    by_cases hstage : s.name = stage
    · simp only [if_pos hstage, Option.some.injEq]
      exact StageRun.isActive_iff hs
    · simp only [if_neg hstage]
      exact hr.active stage

/-- Verdicts that are taken down, by stage, preserve agreement. -/
theorem Consistent.recordAll (hr : r.Consistent) (h : History) : (r.recordAll h).Consistent := by
  induction h generalizing r with
  | nil => exact hr
  | cons s h ih => exact ih (hr.adopt (StageRun.nodup_keys_steps s.1 s.2))

/-- What evaluations in a row leave behind agrees. -/
theorem consistent_after (d : StageDefinition) (calls : List (Surroundings × StepConfigs)) :
    (after d calls).Consistent := by
  rw [after_eq]
  exact consistent_empty.recordAll (d.history calls)

/-! ### Evaluating in place -/

/-- A program that changes what is known and may fail. What it has changed by then stays. -/
abbrev Updating := ExceptT ConditionError (StateM RunConfig)

/-- Take over what was found out about a stage, one map after the other. -/
def adoptInPlace (s : StageRun) : Updating Unit := do
  modify (fun r => { r with runStages := Assoc.set r.runStages s.name s.isActive })
  modify (fun r => { r with runSteps := Assoc.set r.runSteps s.name s.steps })
  unless s.reasons.isEmpty do
    modify (fun r => { r with deactivations := Assoc.set r.deactivations s.name s.reasons })

/-- **Evaluate a definition in place**: decide on all steps, then write stage after stage. -/
def evaluateInPlace (d : StageDefinition) (w : Surroundings) (configs : StepConfigs) :
    Updating Unit := do
  let runs ← MonadExcept.ofExcept (stageRuns configs (d.candidates w))
  runs.forM adoptInPlace

/-- What is known after evaluations in place, from knowing nothing. -/
def inPlace (d : StageDefinition) (calls : List (Surroundings × StepConfigs)) : RunConfig :=
  calls.foldl (fun r call => ((evaluateInPlace d call.1 call.2).run.run r).2) empty

theorem run_adoptInPlace (s : StageRun) (r : RunConfig) :
    (adoptInPlace s).run.run r = (.ok (), r.adopt s) := by
  rw [adoptInPlace, adopt]
  cases s.reasons.isEmpty <;> rfl

/-- No write fails, so all stages are taken over. -/
theorem run_forM_adoptInPlace (runs : List StageRun) (r : RunConfig) :
    (runs.forM adoptInPlace).run.run r = (.ok (), runs.foldl adopt r) := by
  induction runs generalizing r with
  | nil => rfl
  | cons s runs ih =>
    rw [List.foldl_cons, ← ih, List.forM_eq_forM, List.forM_cons, ExceptT.run_bind,
      StateT.run_bind, run_adoptInPlace]
    rfl

/-- **Evaluating in place writes all or nothing**: what the function answers where it has an answer,
and nothing where it fails. -/
theorem run_evaluateInPlace (r : RunConfig) (d : StageDefinition) (w : Surroundings)
    (configs : StepConfigs) :
    (evaluateInPlace d w configs).run.run r
      = ((r.evaluate d w configs).map (fun _ => ()), r.attempt d w configs) := by
  rw [attempt, evaluate, evaluateInPlace]
  rcases stageRuns configs (d.candidates w) with e | runs
  · rfl
  · exact run_forM_adoptInPlace runs r

theorem inPlace_eq_after (d : StageDefinition) (calls : List (Surroundings × StepConfigs)) :
    inPlace d calls = after d calls := by
  rw [inPlace, after]
  congr 1
  funext r call
  rw [run_evaluateInPlace]

end RunConfig

/-! ### Evaluations that fail -/

/-- **Where an evaluation fails**: at a step of a stage that has no verdict, when all stages before
it have got theirs, and so have the steps before it in the stage. -/
structure StageDefinition.FailsAt (w : Surroundings) (configs : StepConfigs) (d : StageDefinition)
    (before : List (String × List Candidate)) (stage : String) (decided : List Candidate)
    (e : ConditionError) : Prop where
  listed : ∃ c undecided later,
    d.candidates w = before ++ (stage, decided ++ c :: undecided) :: later ∧
      c.decide configs stage = .error e
  before : ∀ s ∈ before, ∀ b ∈ s.2, errorOf? (b.decide configs s.1) = none
  decided : ∀ b ∈ decided, errorOf? (b.decide configs stage) = none

/-- An evaluation fails exactly with the error of a step at which it fails. -/
theorem StageDefinition.verdicts_eq_error_iff {w : Surroundings} {configs : StepConfigs}
    {d : StageDefinition} {e : ConditionError} :
    d.verdicts w configs = .error e ↔
      ∃ before stage decided, d.FailsAt w configs before stage decided e := by
  rw [← errorOf?_eq_some_iff, StageDefinition.errorOf?_verdicts, List.findSome?_eq_some_iff]
  constructor
  · rintro ⟨before, ⟨stage, cs⟩, later, hstages, hcs, hbefore⟩
    obtain ⟨decided, c, undecided, rfl, hc, hdecided⟩ := List.findSome?_eq_some_iff.mp hcs
    refine ⟨before, stage, decided, ⟨c, undecided, later, hstages, errorOf?_eq_some_iff.mp hc⟩,
      fun s hs => List.findSome?_eq_none_iff.mp (hbefore s hs), hdecided⟩
  · rintro ⟨before, stage, decided, ⟨c, undecided, later, hstages, hc⟩, hbefore, hdecided⟩
    refine ⟨before, (stage, decided ++ c :: undecided), later, hstages, ?_,
      fun s hs => List.findSome?_eq_none_iff.mpr (hbefore s hs)⟩
    exact List.findSome?_eq_some_iff.mpr
      ⟨decided, c, undecided, rfl, errorOf?_eq_some_iff.mpr hc, hdecided⟩

namespace RunConfig

/-- **Stages and steps agree after any evaluations, and an evaluation that fails changes nothing.**
The evaluations are made in place, in a row, of one definition; configurations, globs, files,
conditions and the system may differ from one to the next. A further one fails exactly when some
step has no verdict, be it in the first stage or after any number of stages that all have theirs,
and then the state is what it was before. -/
theorem consistent_inPlace (d : StageDefinition) (calls : List (Surroundings × StepConfigs)) :
    (inPlace d calls).Consistent ∧ ∀ w configs e,
      (((evaluateInPlace d w configs).run.run (inPlace d calls)).1 = .error e ↔
        ∃ before stage decided, d.FailsAt w configs before stage decided e) ∧
      (((evaluateInPlace d w configs).run.run (inPlace d calls)).1 = .error e →
        ((evaluateInPlace d w configs).run.run (inPlace d calls)).2 = inPlace d calls) := by
  refine ⟨inPlace_eq_after d calls ▸ consistent_after d calls, fun w configs e => ?_⟩
  have herror : ((evaluateInPlace d w configs).run.run (inPlace d calls)).1 = .error e ↔
      d.verdicts w configs = .error e := by
    rw [run_evaluateInPlace, evaluate_eq]
    cases d.verdicts w configs <;> simp [Except.map]
  refine ⟨herror.trans StageDefinition.verdicts_eq_error_iff, fun he => ?_⟩
  rw [run_evaluateInPlace, attempt, evaluate_eq, herror.mp he]
  rfl

/-- A first evaluation finds a step of the first stage not active. The second one would find it
active, gets no configuration for the step of the second stage, and changes nothing. -/
theorem inPlace_of_failure_in_second_stage :
    let d : StageDefinition := .conditions ⟨[("Build", [("scan", [])]), ("Test", [("unit", [])])]⟩
    let w := Surroundings.bare
    let first : StepConfigs := fun _ _ => .ok [("scan", .bool false)]
    let second : StepConfigs := fun stage _ =>
      if stage = "Build" then .ok [] else .error (.wrongType "unit" "bool")
    let r : RunConfig := ⟨[("Build", [("scan", false)]), ("Test", [("unit", true)])],
      [("Build", false), ("Test", true)], [("Build", [("scan", .explicit)])]⟩
    let e : ConditionError := .noConfig "unit" (.wrongType "unit" "bool")
    inPlace d [(w, first)] = r ∧
    ((evaluateInPlace d w second).run.run r).1 = .error e ∧
    ((evaluateInPlace d w second).run.run r).2 = r := by
  intro d w first second r e
  have hr : inPlace d [(w, first)] = r := rfl
  refine ⟨hr, rfl, ?_⟩
  exact ((consistent_inPlace d [(w, first)]).2 w second e).2 rfl

end RunConfig

end PipelineConfig
