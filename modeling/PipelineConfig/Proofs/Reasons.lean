import PipelineConfig.Proofs.History

/-!
# Reasons of steps that are not active

For each step that is not active, a reason is known: `PipelineConfig.History.isSome_reason?` says so
of whatever history has been recorded. The converse – a reason is known *only* of steps that are not
active – is what one expects of reasons, and it does not hold in general. A reason outlives the
verdict it came with in two ways:

* **within a listing**, when it has a step more than once: an active step takes no reason back, so
  the reason of an earlier verdict stays (`PipelineConfig.Verdicts.Final` fails);
* **from one listing of a stage to the next**, when the next one has no reasons at all: then the
  reasons of the stage are not replaced, and all of them stay
  (`PipelineConfig.RunConfig.reason_outlives_verdict`).

There is no third way. `PipelineConfig.History.UpToDate` rules out these two, and it holds *exactly*
when the reasons are those of the steps that are not active
(`PipelineConfig.RunConfig.reasons_iff_upToDate`). A first evaluation with distinct names is the
ordinary case in which it does (`PipelineConfig.RunConfig.reason?_iff_of_distinct`).
-/

namespace PipelineConfig

/-- **A listing without a change of mind**: a step that some verdict finds not active is found not
active by the last verdict on it as well. -/
def Verdicts.Final (vs : Verdicts) : Prop :=
  ∀ step reason, (step, some reason) ∈ vs → ∃ reason', Assoc.last? vs step = some (some reason')

/-- **Reasons are up to date** after a history: the last listing of a stage has no change of mind,
and if it finds every step active then so did all listings of that stage before it. -/
structure History.UpToDate (h : History) : Prop where
  /-- The last listing of a stage has no change of mind. -/
  final : ∀ stage vs, Assoc.last? h stage = some vs → Verdicts.Final vs
  /-- Where the last listing of a stage has no reasons, no listing of it has had any. -/
  fresh : ∀ stage vs, Assoc.last? h stage = some vs → vs.reasons = [] →
    ∀ vs', (stage, vs') ∈ h → vs'.reasons = []

namespace History

variable {h : History} {stage step : String} {vs : Verdicts}

/-! ### The listings that have reasons -/

theorem last?_withReasons (hvs : Assoc.last? h stage = some vs) (hne : vs.reasons ≠ []) :
    Assoc.last? h.withReasons stage = some vs := by
  refine Assoc.last?_filter_of_last? hvs ?_
  rw [Bool.not_eq_true', Bool.eq_false_iff, Ne, List.isEmpty_iff]
  exact hne

theorem mem_withReasons : (stage, vs) ∈ h.withReasons ↔ (stage, vs) ∈ h ∧ vs.reasons ≠ [] := by
  rw [withReasons, List.mem_filter, Bool.not_eq_true', Bool.eq_false_iff, Ne, List.isEmpty_iff]

theorem of_last?_withReasons (hvs : Assoc.last? h.withReasons stage = some vs) :
    (stage, vs) ∈ h ∧ vs.reasons ≠ [] :=
  mem_withReasons.mp (Assoc.mem_of_last? hvs)

/-! ### The reasons, by single verdicts -/

theorem isSome_reason?_iff :
    ((RunConfig.empty.recordAll h).reason? stage step).isSome ↔
      ∃ vs, Assoc.last? h.withReasons stage = some vs ∧ ∃ reason, (step, some reason) ∈ vs := by
  rw [RunConfig.reason?_recordAll, Option.isSome_bind, Option.any_eq_true]
  simp only [Verdicts.isSome_last?_reasons]

/-- **A step that is not active has a reason**, after any history. -/
theorem isSome_reason?
    (hstep : (RunConfig.empty.recordAll h).stepActive? stage step = some false) :
    ((RunConfig.empty.recordAll h).reason? stage step).isSome := by
  obtain ⟨vs, hvs, reason, hlast⟩ := RunConfig.stepActive?_eq_false_iff.mp hstep
  have hmem : (step, some reason) ∈ vs := Assoc.mem_of_last? hlast
  have hne : vs.reasons ≠ [] := List.ne_nil_of_mem (Verdicts.mem_reasons.mpr hmem)
  exact isSome_reason?_iff.mpr ⟨vs, last?_withReasons hvs hne, reason, hmem⟩

/-! ### When reasons are up to date -/

theorem UpToDate.stepActive? (hup : h.UpToDate)
    (hreason : ((RunConfig.empty.recordAll h).reason? stage step).isSome) :
    (RunConfig.empty.recordAll h).stepActive? stage step = some false := by
  obtain ⟨us, hus, reason, hmem⟩ := isSome_reason?_iff.mp hreason
  obtain ⟨hlisted, hne⟩ := of_last?_withReasons hus
  obtain ⟨vs, hvs⟩ := Assoc.exists_last?_of_mem hlisted
  -- the last listing has reasons, so it is the one that the reasons are those of
  have hvsne : vs.reasons ≠ [] := fun hnil => hne (hup.fresh stage vs hvs hnil us hlisted)
  obtain rfl : vs = us := Option.some.inj ((last?_withReasons hvs hvsne).symm.trans hus)
  exact RunConfig.stepActive?_eq_false_iff.mpr ⟨vs, hvs, hup.final stage vs hvs step reason hmem⟩

theorem upToDate_of_stepActive?
    (hall : ∀ stage step, ((RunConfig.empty.recordAll h).reason? stage step).isSome →
      (RunConfig.empty.recordAll h).stepActive? stage step = some false) : h.UpToDate where
  final stage vs hvs step reason hmem := by
    have hne : vs.reasons ≠ [] := List.ne_nil_of_mem (Verdicts.mem_reasons.mpr hmem)
    obtain ⟨us, hus, reason', hlast⟩ := RunConfig.stepActive?_eq_false_iff.mp
      (hall stage step (isSome_reason?_iff.mpr ⟨vs, last?_withReasons hvs hne, reason, hmem⟩))
    obtain rfl : vs = us := Option.some.inj (hvs.symm.trans hus)
    exact ⟨reason', hlast⟩
  fresh stage vs hvs hnil vs' hmem' := by
    by_contra hne
    obtain ⟨us, hus⟩ := Assoc.exists_last?_of_mem (mem_withReasons.mpr ⟨hmem', hne⟩)
    obtain ⟨-, husne⟩ := of_last?_withReasons hus
    obtain ⟨⟨step, reason⟩, hreason⟩ := List.exists_mem_of_ne_nil _ husne
    -- a step of which that listing knows a reason is not active, so the last listing has one, too
    obtain ⟨vs', hvs', reason', hlast⟩ := RunConfig.stepActive?_eq_false_iff.mp
      (hall stage step (isSome_reason?_iff.mpr ⟨us, hus, reason, Verdicts.mem_reasons.mp hreason⟩))
    obtain rfl : vs = vs' := Option.some.inj (hvs.symm.trans hvs')
    exact List.ne_nil_of_mem (Verdicts.mem_reasons.mpr (Assoc.mem_of_last? hlast)) hnil

/-- With distinct names there is one listing of a stage and one verdict on a step, so nothing can be
out of date. -/
theorem Distinct.upToDate (hd : h.Distinct) : h.UpToDate where
  final stage vs hvs step reason hmem :=
    ⟨reason, Assoc.last?_of_mem (hd.steps _ (Assoc.mem_of_last? hvs)) hmem⟩
  fresh stage vs hvs hnil vs' hmem' := by
    obtain rfl : vs' = vs := Option.some.inj ((hd.last? hmem').symm.trans hvs)
    exact hnil

end History

namespace RunConfig

/-- **Reasons are those of the steps that are not active exactly when they are up to date.** After
any evaluations of a definition in a row, every step that is not active has a reason; and only these
have one if and only if the history of the evaluations says so. -/
theorem reasons_iff_upToDate (d : StageDefinition) (calls : List (Surroundings × StepConfigs)) :
    (∀ stage step, (after d calls).stepActive? stage step = some false →
      ((after d calls).reason? stage step).isSome) ∧
    ((∀ stage step, ((after d calls).reason? stage step).isSome ↔
      (after d calls).stepActive? stage step = some false) ↔ (d.history calls).UpToDate) := by
  rw [after_eq]
  refine ⟨fun stage step => History.isSome_reason?, fun hall => ?_, fun hup stage step => ?_⟩
  · exact History.upToDate_of_stepActive? fun stage step => (hall stage step).mp
  · exact ⟨hup.stepActive?, History.isSome_reason?⟩

/-- A step that is switched off in a first evaluation and no longer in a second one is active, with
the reason of the first. -/
theorem reason_outlives_verdict :
    let d : StageDefinition := .conditions ⟨[("Build", [("scan", [])])]⟩
    let w := Surroundings.bare
    let r := after d [(w, fun _ _ => .ok [("scan", .bool false)]), (w, fun _ _ => .ok [])]
    r.stepActive? "Build" "scan" = some true ∧ r.reason? "Build" "scan" = some .explicit :=
  ⟨rfl, rfl⟩

/-- **The reasons of a first evaluation** are those of the steps that are not active, if names are
distinct. -/
theorem reason?_iff_of_distinct {d : StageDefinition} {w : Surroundings} {configs : StepConfigs}
    {r : RunConfig} (hd : d.Distinct w) (hr : empty.evaluate d w configs = .ok r)
    (stage step : String) :
    (r.reason? stage step).isSome ↔ r.stepActive? stage step = some false := by
  rw [evaluate_eq] at hr
  obtain ⟨h, hh, rfl⟩ := map_eq_ok_iff.mp hr
  exact ⟨(hd.verdicts hh).upToDate.stepActive?, History.isSome_reason?⟩

end RunConfig

end PipelineConfig
