import Mathlib.Tactic.SplitIfs
import PipelineConfig.Pipeline.Rules

/-!
# The kind of a rule is what it looks at

A rule is a record of eight settings, and only the first of them that is there counts. Two functions
look for it, one after the other and independently: `PipelineConfig.Rule.kind`, by which a rule is
reported, and `PipelineConfig.Rule.holds`, which evaluates it. What *there* means differs from setting
to setting, as some may be missing and others be empty.

This file shows that the two always find the same setting (`PipelineConfig.Rule.holds_eq_check`). So
the kind that is reported is the kind that was looked at, and two rules of one kind that have the same
setting of this kind cannot be told apart, whatever else is in them
(`PipelineConfig.Rule.holds_of_agreeOn`).

The order of entries is part of a setting. If a rule names several entries of the pipeline environment,
those behind the first that has its value are not looked at, and one of them might be unreadable.
-/

namespace PipelineConfig

namespace Rule

variable {r r' : Rule} {c : RuleCall}

/-- What a rule of some kind looks at: its setting of that kind, and nothing else of it. -/
def check (r : Rule) (c : RuleCall) : RuleKind → Verdict
  | .config => configHolds (r.config?.getD []) c
  | .configKey => .ok (c.config.hasPath (Text.splitOn '/' r.configKey))
  | .filePattern => Checks.matchesFile c.glob r.filePattern
  | .filePatternFromConfig => settingPatternHolds r.filePatternFromConfig c
  | .npmScript =>
    Checks.declaresScript c.glob c.openFile (.wrongType c.step "npmScript") r.npmScript
  | .environment => c.anyEntryIs (r.environment?.getD [])
  | .environmentFilled => c.isFilled r.environmentFilled
  | .inactive => .ok (!r.inactive)

/-- **Two rules have the same setting of a kind.** -/
def AgreeOn (r r' : Rule) : RuleKind → Prop
  | .config => r.config? = r'.config?
  | .configKey => r.configKey = r'.configKey
  | .filePattern => r.filePattern = r'.filePattern
  | .filePatternFromConfig => r.filePatternFromConfig = r'.filePatternFromConfig
  | .npmScript => r.npmScript = r'.npmScript
  | .environment => r.environment? = r'.environment?
  | .environmentFilled => r.environmentFilled = r'.environmentFilled
  | .inactive => r.inactive = r'.inactive

/-- What is looked at for a kind is the setting of that kind. -/
theorem check_congr {k : RuleKind} (h : r.AgreeOn r' k) (c : RuleCall) : r.check c k = r'.check c k := by
  cases k <;> simp only [AgreeOn] at h <;> simp only [check, h]

/-- **A rule is evaluated by its kind**: the setting that a rule is reported by is the one that decides
whether it holds. -/
theorem holds_eq_check (r : Rule) (c : RuleCall) : r.holds c = r.check c r.kind := by
  rcases hconfig : r.config? with _ | settings
  · -- behind `config` both look for the settings in one order, so each test is decided for both
    rcases henvironment : r.environment? with _ | entries
    · simp only [holds, kind, hconfig, henvironment, Option.isSome_none, Bool.false_eq_true, if_false]
      split_ifs <;> rfl
    · have hcheck : r.check c .environment = c.anyEntryIs entries := by simp [check, henvironment]
      simp only [holds, kind, hconfig, henvironment, Option.isSome_none, Option.isSome_some,
        Bool.false_eq_true, if_false, if_true]
      split_ifs
      case neg => exact hcheck.symm
      all_goals rfl
  · simp [holds, kind, check, hconfig]

/-- **The kind of a rule is what it looks at**: two rules of one kind that have the same setting of that
kind hold alike, and fail with the same error, whatever their other settings are. A rule without any
setting holds or not without a look at the configuration or at files. -/
theorem holds_of_agreeOn (r r' : Rule) (hkind : r.kind = r'.kind) (hagree : r.AgreeOn r' r.kind) :
    (∀ c, r.holds c = r'.holds c) ∧
      (r.kind = .inactive → ∀ c c' : RuleCall, r.holds c = r.holds c') := by
  constructor
  · intro c
    calc r.holds c = r.check c r.kind := holds_eq_check r c
      _ = r'.check c r.kind := check_congr hagree c
      _ = r'.check c r'.kind := by rw [hkind]
      _ = r'.holds c := (holds_eq_check r' c).symm
  · intro hinactive c c'
    have hanswer (d : RuleCall) : r.holds d = .ok (!r.inactive) := by
      rw [holds_eq_check, hinactive, check]
    rw [hanswer c, hanswer c']

/-- Two rules that look at the same path and have nothing else in common, and a rule that has no setting
but a pattern that is empty. -/
theorem holds_of_agreeOn_covered :
    let blank : Rule := ⟨none, "", "", "", "", none, "", true⟩
    let r : Rule := { blank with
      configKey := "tool/scan", filePattern := "*.md", environment? := some [("a", .bool true)] }
    let r' : Rule := { blank with
      configKey := "tool/scan", npmScript := "lint", environmentFilled := "b", inactive := false }
    (r.kind = r'.kind ∧ r.AgreeOn r' r.kind ∧ ∀ c, r.holds c = r'.holds c) ∧
      blank.kind = .inactive ∧ ∀ c c' : RuleCall, blank.holds c = blank.holds c' := by
  intro blank r r'
  have hkind : r.kind = r'.kind := by decide
  have hagree : r.AgreeOn r' r.kind := rfl
  have hblank : blank.kind = .inactive := by decide
  have hself : blank.AgreeOn blank blank.kind := rfl
  exact ⟨⟨hkind, hagree, (holds_of_agreeOn r r' hkind hagree).1⟩, hblank,
    (holds_of_agreeOn blank blank rfl hself).2 hblank⟩

end Rule

end PipelineConfig
