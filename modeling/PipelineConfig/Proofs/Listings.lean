import PipelineConfig.Proofs.History

/-!
# Every step that a definition lists

After an evaluation one expects two things of every step that the definition lists
(`PipelineConfig.StageDefinition.Lists`): that it is known whether the step is active, and that a
step that was found not to be active in one place is not active in the end. Then no verdict is lost.

An evaluation keeps the steps of a stage under the *reported name* of the stage, one verdict for
each name of a step, and what comes later replaces what was there. So the expectation fails where
names are not distinct, in two ways:

* a later stage of the same reported name does not list the step: then nothing is known of it;
* the step is listed once more, in the same stage or in a later one of that name, and is active
  there: then it is active, whatever was found before.

These are all ways to lose a verdict: `PipelineConfig.History.Lossless` rules out the two and
nothing else (`PipelineConfig.RunConfig.listed_iff_lossless`). Distinct names are enough for it, and
then nothing needs to be known of verdicts (`PipelineConfig.History.Distinct.lossless`).
-/

namespace PipelineConfig

/-! ### Listed steps -/

namespace StageDefinition

/-- **A definition lists a step**, in a stage by its reported name, and this is the verdict on it
there. A pipeline definition lists only those of its steps that run on the system at hand. -/
inductive Lists (w : Surroundings) (configs : StepConfigs) :
    StageDefinition → String → String → StepVerdict → Prop
  | conditions {d : StageDocument} {stage step : String} {steps : List (String × List Condition)}
      {cs : List Condition} (hstage : (stage, steps) ∈ d.stages) (hstep : (step, cs) ∈ steps) :
      Lists w configs (.conditions d) stage step
        (Candidate.decide
          ⟨step, fun config => w.registry.deactivation? step cs config w.glob w.openFile⟩
          configs stage)
  | pipeline {d : PipelineDefinition} {stage : PipelineStage} {s : PipelineStep}
      (hstage : stage ∈ d.stages) (hstep : s ∈ stage.steps) (hruns : s.runsOn w.orchestrator) :
      Lists w configs (.pipeline d) stage.reportedName s.name
        (Candidate.decide
          ⟨s.name, fun config => s.deactivation? ⟨s.name, config, w.glob, w.openFile, w.root⟩⟩
          configs stage.reportedName)

variable {w : Surroundings} {configs : StepConfigs} {d : StageDefinition} {stage step : String}

/-- What is listed is what there is to decide on. -/
theorem lists_iff_candidate {v : StepVerdict} :
    d.Lists w configs stage step v ↔ ∃ cs, (stage, cs) ∈ d.candidates w ∧
      ∃ c ∈ cs, c.step = step ∧ c.decide configs stage = v := by
  constructor
  · intro h
    cases h with
    | conditions hstage hstep =>
      exact ⟨_, List.mem_map_of_mem hstage, _, List.mem_map_of_mem hstep, rfl, rfl⟩
    | pipeline hstage hstep hruns =>
      refine ⟨_, List.mem_map_of_mem hstage, _, List.mem_map_of_mem ?_, rfl, rfl⟩
      exact List.mem_filter.mpr ⟨hstep, hruns⟩
  · rintro ⟨cs, hcs, c, hc, rfl, rfl⟩
    cases d with
    | conditions d =>
      obtain ⟨⟨stage', steps⟩, hstage, he⟩ := List.mem_map.mp hcs
      cases he
      obtain ⟨⟨step, conditions⟩, hstep, rfl⟩ := List.mem_map.mp hc
      exact .conditions hstage hstep
    | pipeline d =>
      obtain ⟨s, hstage, he⟩ := List.mem_map.mp hcs
      cases he
      obtain ⟨step, hstep, rfl⟩ := List.mem_map.mp hc
      obtain ⟨hstep, hruns⟩ := List.mem_filter.mp hstep
      exact .pipeline hstage hstep hruns

/-- **What is listed is what is recorded**, where every listed step has a verdict. -/
theorem lists_iff_mem_verdicts {h : History} (hh : d.verdicts w configs = .ok h)
    {v : StepVerdict} :
    d.Lists w configs stage step v ↔
      ∃ vs, (stage, vs) ∈ h ∧ ∃ reason?, (step, reason?) ∈ vs ∧ v = .ok reason? := by
  rw [lists_iff_candidate]
  constructor
  · rintro ⟨cs, hcs, c, hc, rfl, rfl⟩
    obtain ⟨s, hs, hstage⟩ := exists_of_mapM_eq_ok hh hcs
    obtain ⟨vs, hvs, rfl⟩ := map_eq_ok_iff.mp hstage
    obtain ⟨p, hp, hstep⟩ := exists_of_mapM_eq_ok hvs hc
    obtain ⟨reason?, hreason, rfl⟩ := map_eq_ok_iff.mp hstep
    exact ⟨vs, hs, reason?, hp, hreason⟩
  · rintro ⟨vs, hvs, reason?, hreason, rfl⟩
    obtain ⟨⟨stage', cs⟩, hcs, hstage⟩ := (mem_iff_of_mapM_eq_ok hh _).mp hvs
    obtain ⟨vs', hvs', he⟩ := map_eq_ok_iff.mp hstage
    cases he
    obtain ⟨c, hc, hstep⟩ := (mem_iff_of_mapM_eq_ok hvs' _).mp hreason
    obtain ⟨reason', hdecide, he⟩ := map_eq_ok_iff.mp hstep
    cases he
    exact ⟨cs, hcs, c, hc, rfl, hdecide⟩

end StageDefinition

/-! ### Verdicts that are not lost -/

/-- **No verdict is lost**: the last listing of a stage speaks for all listings of it. -/
structure History.Lossless (h : History) : Prop where
  /-- Every step that some listing of a stage has is in the last one. -/
  listed : ∀ stage vs us, (stage, vs) ∈ h → Assoc.last? h stage = some us →
    ∀ step ∈ Assoc.keys vs, step ∈ Assoc.keys us
  /-- A step that some listing of a stage finds not active is not active by the last verdict of the
  last one. -/
  final : ∀ stage vs us, (stage, vs) ∈ h → Assoc.last? h stage = some us →
    ∀ step reason, (step, some reason) ∈ vs → ∃ reason', Assoc.last? us step = some (some reason')

namespace History

variable {h : History} {stage step : String} {vs : Verdicts}

/-- Every recorded verdict is known in the end, and one that has a reason has not been replaced by
one that has none. -/
theorem Lossless.stepActive? (hl : h.Lossless) {reason? : Option Deactivation}
    (hvs : (stage, vs) ∈ h) (hstep : (step, reason?) ∈ vs) :
    ∃ active, (RunConfig.empty.recordAll h).stepActive? stage step = some active ∧
      (reason?.isSome → active = false) := by
  obtain ⟨us, hus⟩ := Assoc.exists_last?_of_mem hvs
  rcases reason? with _ | reason
  · have hkey := hl.listed stage vs us hvs hus step (Assoc.mem_keys_iff.mpr ⟨_, hstep⟩)
    obtain ⟨v, hv⟩ := Assoc.mem_keys_iff.mp hkey
    obtain ⟨v', hv'⟩ := Assoc.exists_last?_of_mem hv
    refine ⟨v'.isNone, RunConfig.stepActive?_eq_some_iff.mpr ⟨us, hus, v', hv', rfl⟩, ?_⟩
    rintro ⟨⟩
  · obtain ⟨reason', hreason'⟩ := hl.final stage vs us hvs hus step reason hstep
    refine ⟨false, ?_, fun _ => rfl⟩
    exact RunConfig.stepActive?_eq_false_iff.mpr ⟨us, hus, reason', hreason'⟩

theorem lossless_of_stepActive?
    (hall : ∀ stage vs step reason?, (stage, vs) ∈ h → (step, reason?) ∈ vs →
      ∃ active, (RunConfig.empty.recordAll h).stepActive? stage step = some active ∧
        (reason?.isSome → active = false)) : h.Lossless where
  listed stage vs us hvs hus step hstep := by
    -- a step that is known at all is known from the last listing
    obtain ⟨v, hv⟩ := Assoc.mem_keys_iff.mp hstep
    obtain ⟨active, hactive, -⟩ := hall stage vs step v hvs hv
    obtain ⟨us', hus', v', hv', -⟩ := RunConfig.stepActive?_eq_some_iff.mp hactive
    obtain rfl : us = us' := Option.some.inj (hus.symm.trans hus')
    exact Assoc.mem_keys_iff.mpr ⟨v', Assoc.mem_of_last? hv'⟩
  final stage vs us hvs hus step reason hstep := by
    obtain ⟨active, hactive, hfalse⟩ := hall stage vs step (some reason) hvs hstep
    rw [hfalse rfl] at hactive
    obtain ⟨us', hus', hlast⟩ := RunConfig.stepActive?_eq_false_iff.mp hactive
    obtain rfl : us = us' := Option.some.inj (hus.symm.trans hus')
    exact hlast

/-- **Distinct names lose no verdict**, whatever the verdicts are. -/
theorem Distinct.lossless (hd : h.Distinct) : h.Lossless where
  listed stage vs us hvs hus step hstep := by
    obtain rfl : vs = us := Option.some.inj ((hd.last? hvs).symm.trans hus)
    exact hstep
  final stage vs us hvs hus step reason hstep := by
    obtain rfl : vs = us := Option.some.inj ((hd.last? hvs).symm.trans hus)
    exact ⟨reason, Assoc.last?_of_mem (hd.steps _ hvs) hstep⟩

end History

namespace RunConfig

/-- **Every listed step is known, and never active against a verdict, exactly when no verdict is
lost.** After a first evaluation that succeeds, the two hold of all steps that the definition lists
if and only if they can be read off the last listing of each stage; with distinct names, always. -/
theorem listed_iff_lossless {d : StageDefinition} {w : Surroundings} {configs : StepConfigs}
    {r : RunConfig} (hr : empty.evaluate d w configs = .ok r) :
    ∃ h, d.verdicts w configs = .ok h ∧
      ((∀ stage step v, d.Lists w configs stage step v →
        ∃ active, r.stepActive? stage step = some active ∧
          (∀ reason, v = .ok (some reason) → active = false)) ↔ h.Lossless) ∧
      (d.Distinct w → h.Lossless) := by
  rw [evaluate_eq] at hr
  obtain ⟨h, hh, rfl⟩ := map_eq_ok_iff.mp hr
  refine ⟨h, hh, ⟨fun hall => ?_, fun hl => ?_⟩, fun hd => (hd.verdicts hh).lossless⟩
  · refine History.lossless_of_stepActive? fun stage vs step reason? hvs hstep => ?_
    obtain ⟨active, hactive, hfalse⟩ := hall stage step (.ok reason?)
      ((StageDefinition.lists_iff_mem_verdicts hh).mpr ⟨vs, hvs, reason?, hstep, rfl⟩)
    refine ⟨active, hactive, fun hsome => ?_⟩
    obtain ⟨reason, rfl⟩ := Option.isSome_iff_exists.mp hsome
    exact hfalse reason rfl
  · intro stage step v hlists
    obtain ⟨vs, hvs, reason?, hstep, rfl⟩ := (StageDefinition.lists_iff_mem_verdicts hh).mp hlists
    obtain ⟨active, hactive, hfalse⟩ := hl.stepActive? hvs hstep
    refine ⟨active, hactive, fun reason hreason => hfalse ?_⟩
    rw [Except.ok.inj hreason]
    rfl

/-- Two of three stages have the same reported name, and in the last one a step is listed twice. No
verdict is lost: the last stage has all the steps of the first, and its last verdict on the step is
once more that it is not active. -/
theorem listed_of_repeated_stage :
    let never : Rule := ⟨none, "", "", "", "", none, "", true⟩
    let d : StageDefinition := .pipeline { PipelineDefinition.empty with
      stages := [⟨"Build", "", "", [⟨"compile", "", [], [], []⟩, ⟨"scan", "", [never], [], []⟩]⟩,
        ⟨"Test", "", "", [⟨"unit", "", [], [], []⟩, ⟨"load", "", [never], [], []⟩]⟩,
        ⟨"Package", "Build", "", [⟨"scan", "", [], [], []⟩, ⟨"compile", "", [], [], []⟩,
          ⟨"scan", "", [never], [], []⟩]⟩] }
    let w := Surroundings.bare
    let configs : StepConfigs := fun _ _ => .ok []
    ∃ r, empty.evaluate d w configs = .ok r ∧
      r.stepActive? "Build" "compile" = some true ∧ r.stepActive? "Build" "scan" = some false ∧
      r.stepActive? "Test" "load" = some false ∧
      ∀ stage step v, d.Lists w configs stage step v →
        ∃ active, r.stepActive? stage step = some active ∧
          (∀ reason, v = .ok (some reason) → active = false) := by
  intro never d w configs
  have hr : empty.evaluate d w configs = .ok _ := rfl
  obtain ⟨h, hh, hiff, -⟩ := listed_iff_lossless hr
  refine ⟨_, hr, rfl, rfl, rfl, ?_⟩
  refine hiff.mpr ?_
  have hverdicts : d.verdicts w configs = .ok
      [("Build", [("compile", none), ("scan", some .noConditionMet)]),
        ("Test", [("unit", none), ("load", some .noConditionMet)]),
        ("Build", [("scan", none), ("compile", none), ("scan", some .noConditionMet)])] := rfl
  obtain rfl := Except.ok.inj (hh.symm.trans hverdicts)
  constructor
  · intro stage vs us hvs hus
    simp only [List.mem_cons, Prod.mk.injEq, List.not_mem_nil, or_false] at hvs
    rcases hvs with ⟨rfl, rfl⟩ | ⟨rfl, rfl⟩ | ⟨rfl, rfl⟩ <;> cases hus <;> decide
  · intro stage vs us hvs hus step reason hstep
    simp only [List.mem_cons, Prod.mk.injEq, List.not_mem_nil, or_false] at hvs
    -- in each listing there is one step with a reason
    rcases hvs with ⟨rfl, rfl⟩ | ⟨rfl, rfl⟩ | ⟨rfl, rfl⟩ <;> cases hus <;>
      simp only [List.mem_cons, Prod.mk.injEq, reduceCtorEq, and_false, List.not_mem_nil, or_false,
        false_or] at hstep <;>
      obtain ⟨rfl, -⟩ := hstep <;>
      exact ⟨_, rfl⟩

/-- A step that is listed twice, once never to be active and once without any rule, is active. -/
theorem active_against_verdict :
    let never : Rule := ⟨none, "", "", "", "", none, "", true⟩
    let d : StageDefinition := .pipeline { PipelineDefinition.empty with
      stages := [⟨"Build", "", "", [⟨"scan", "", [never], [], []⟩, ⟨"scan", "", [], [], []⟩]⟩] }
    let w := Surroundings.bare
    let configs : StepConfigs := fun _ _ => .ok []
    d.Lists w configs "Build" "scan" (.ok (some .noConditionMet)) ∧
    ∃ r, empty.evaluate d w configs = .ok r ∧ r.stepActive? "Build" "scan" = some true := by
  refine ⟨StageDefinition.lists_iff_candidate.mpr ?_, _, rfl, rfl⟩
  exact ⟨_, List.mem_singleton_self _, _, List.mem_cons_self, rfl, rfl⟩

/-- Of two stages of one name only the steps of the second are known. -/
theorem unknown_after_verdict :
    let d : StageDefinition := .pipeline { PipelineDefinition.empty with
      stages := [⟨"Build", "", "", [⟨"scan", "", [], [], []⟩]⟩,
        ⟨"Compile", "Build", "", [⟨"test", "", [], [], []⟩]⟩] }
    let w := Surroundings.bare
    let configs : StepConfigs := fun _ _ => .ok [("scan", .bool false)]
    d.Lists w configs "Build" "scan" (.ok (some .explicit)) ∧
    ∃ r, empty.evaluate d w configs = .ok r ∧ r.stepActive? "Build" "scan" = none := by
  refine ⟨StageDefinition.lists_iff_candidate.mpr ?_, _, rfl, rfl⟩
  exact ⟨_, List.mem_cons_self, _, List.mem_singleton_self _, rfl, rfl⟩

end RunConfig

end PipelineConfig
