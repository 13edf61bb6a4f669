import Mathlib.Tactic.SplitIfs
import PipelineConfig.Pipeline.Deactivation
import PipelineConfig.Proofs.FirstError

/-!
# The verdict on a step of a pipeline definition

A step of a pipeline definition has rules of which any one makes it active, and rules of which any one
keeps it from being active. What its configuration says under its own name takes the place of the rules
for it, but not of those against it. From this it is plain whether the step is active, and if it is not,
why (`PipelineConfig.PipelineStep.reason?`): there is one reason for each of the three ways, and the
first one that applies is given.

Rules may also fail, and they are looked at in order, up to the first that holds. So a list of rules
fails with the error of a rule in front of which no rule holds and none fails
(`PipelineConfig.Rule.FailsWith`), and rules behind one that holds do not matter, even if they would fail.
The rules against a step are looked at whatever has been found before, so they can make the evaluation
of a step fail which is not active anyway (`PipelineConfig.PipelineStep.FailsWith`).

These are all ways to fail, and where nothing fails the verdict is the one that the rules have by
themselves (`PipelineConfig.PipelineStep.deactivation?_eq_error_iff`,
`PipelineConfig.PipelineStep.deactivation?_eq_ok`). The order of the rules only shows in which error is
returned and in the reason, not in whether the step is active
(`PipelineConfig.PipelineStep.eq_none_iff_of_perm`, `PipelineConfig.PipelineStep.verdict_of_rules`).
-/

namespace PipelineConfig

/-! ### Rules in a row -/

namespace Rule

variable {c : RuleCall} {r : Rule} {rules : List Rule} {e : ConditionError}

/-- **Rules fail with an error**, one after the other: it is that of a rule which no other one in front
of it has kept from being looked at, by holding or by failing itself. -/
def FailsWith (c : RuleCall) (rules : List Rule) (e : ConditionError) : Prop :=
  ∃ before r after, rules = before ++ r :: after ∧ r.holds c = .error e ∧
    ∀ q ∈ before, q.holds c = .ok false

/-- Every rule has a verdict. -/
def Settled (c : RuleCall) (rules : List Rule) : Prop :=
  ∀ r ∈ rules, ∃ b, r.holds c = .ok b

theorem firstHolding?_cons_of_error (h : r.holds c = .error e) :
    firstHolding? c (r :: rules) = .error e := by
  rw [firstHolding?, h]
  rfl

theorem firstHolding?_cons_of_true (h : r.holds c = .ok true) :
    firstHolding? c (r :: rules) = .ok (some r) := by
  rw [firstHolding?, h]
  rfl

theorem firstHolding?_cons_of_false (h : r.holds c = .ok false) :
    firstHolding? c (r :: rules) = firstHolding? c rules := by
  rw [firstHolding?, h]
  rfl

theorem failsWith_cons_of_false (h : r.holds c = .ok false) :
    FailsWith c (r :: rules) e ↔ FailsWith c rules e := by
  constructor
  · rintro ⟨before, q, after, heq, hq, hbefore⟩
    rcases before with _ | ⟨b, before⟩
    · obtain ⟨rfl, rfl⟩ := List.cons.inj heq
      rw [h] at hq
      cases hq
    · obtain ⟨rfl, rfl⟩ := List.cons.inj heq
      exact ⟨before, q, after, rfl, hq, fun p hp => hbefore p (List.mem_cons_of_mem _ hp)⟩
  · rintro ⟨before, q, after, rfl, hq, hbefore⟩
    exact ⟨r :: before, q, after, rfl, hq, List.forall_mem_cons.mpr ⟨h, hbefore⟩⟩

theorem failsWith_cons_of_ne (h : r.holds c ≠ .ok false) :
    FailsWith c (r :: rules) e ↔ r.holds c = .error e := by
  constructor
  · rintro ⟨before, q, after, heq, hq, hbefore⟩
    rcases before with _ | ⟨b, before⟩
    · obtain ⟨rfl, rfl⟩ := List.cons.inj heq
      exact hq
    · obtain ⟨rfl, rfl⟩ := List.cons.inj heq
      exact absurd (hbefore r List.mem_cons_self) h
  · exact fun hr => ⟨[], r, rules, rfl, hr, List.forall_mem_nil _⟩

/-- **Rules that are looked at in order fail** with the first error that is reached. -/
theorem firstHolding?_eq_error_iff : firstHolding? c rules = .error e ↔ FailsWith c rules e := by
  -- only behind a rule that does not hold are the other rules looked at
  induction rules with
  | nil =>
    constructor
    · rintro ⟨⟩
    · rintro ⟨before, r, after, heq, -⟩
      cases before <;> cases heq
  | cons r rules ih =>
    rcases hr : r.holds c with e' | holds
    · rw [firstHolding?_cons_of_error hr, failsWith_cons_of_ne (by simp [hr]), hr]
      simp
    · cases holds with
      | true =>
        rw [firstHolding?_cons_of_true hr, failsWith_cons_of_ne (by simp [hr]), hr]
        simp
      | false => rw [firstHolding?_cons_of_false hr, failsWith_cons_of_false hr, ih]

/-- **Rules that do not fail** are looked through for the first that holds. -/
theorem eq_find?_of_firstHolding? {r? : Option Rule} (h : firstHolding? c rules = .ok r?) :
    r? = rules.find? (fun r => r.holds c = .ok true) := by
  induction rules with
  | nil =>
    cases h
    rfl
  | cons r rules ih =>
    rcases hr : r.holds c with e | holds
    · rw [firstHolding?_cons_of_error hr] at h
      cases h
    · cases holds with
      | true =>
        rw [firstHolding?_cons_of_true hr] at h
        cases h
        rw [List.find?_cons_of_pos (by simp [hr])]
      | false =>
        rw [firstHolding?_cons_of_false hr] at h
        rw [ih h, List.find?_cons_of_neg (by simp [hr])]

/-- Rules with verdicts do not fail. -/
theorem Settled.not_failsWith (h : Settled c rules) : ¬ FailsWith c rules e := by
  rintro ⟨before, r, after, rfl, hr, -⟩
  obtain ⟨b, hb⟩ := h r (List.mem_append_right _ List.mem_cons_self)
  rw [hr] at hb
  cases hb

end Rule

/-! ### The verdict by the rules -/

namespace PipelineStep

/-- What a configuration says of a step under its own name, if it is a truth value. -/
def explicit? (s : PipelineStep) (config : Mapping) : Option Bool :=
  (Assoc.get? config s.name).bind Value.asBool?

/-- **A step is active** if its configuration says so or, where it says nothing, if the step needs no
rule or one of its rules holds; and if no rule against it holds. -/
def Active (s : PipelineStep) (c : RuleCall) : Prop :=
  (s.explicit? c.config = some true ∨ s.explicit? c.config = none ∧
    (s.conditions = [] ∨ ∃ r ∈ s.conditions, r.holds c = .ok true)) ∧
  ¬ ∃ r ∈ s.notActiveConditions, r.holds c = .ok true

/-- **Why a step is not active**: because its configuration says so; else because it needs a rule and
none holds; else because of the first rule against it that holds, if one does. -/
def reason? (s : PipelineStep) (c : RuleCall) : Option Deactivation :=
  if s.explicit? c.config = some false then some .explicit
  else if s.explicit? c.config = none ∧ s.conditions ≠ [] ∧
      ¬ ∃ r ∈ s.conditions, r.holds c = .ok true then some .noConditionMet
  else (s.notActiveConditions.find? (fun r => r.holds c = .ok true)).map (fun r =>
    .notActiveCondition r.kind.name)

/-- **A step has no verdict** because of an error: its rules fail with it, where they are looked at; or
they do not fail, and the rules against it do. -/
def FailsWith (s : PipelineStep) (c : RuleCall) (e : ConditionError) : Prop :=
  (s.explicit? c.config = none ∧ Rule.FailsWith c s.conditions e) ∨
  ((¬ ∃ e', s.explicit? c.config = none ∧ Rule.FailsWith c s.conditions e') ∧
    Rule.FailsWith c s.notActiveConditions e)

variable {s s' : PipelineStep} {c : RuleCall} {e : ConditionError}

/-- A step has no reason not to be active exactly if it is active. -/
theorem reason?_eq_none_iff : s.reason? c = none ↔ s.Active c := by
  have hagainst : (s.notActiveConditions.find? (fun r => r.holds c = .ok true)).map
      (fun r => Deactivation.notActiveCondition r.kind.name) = none ↔
        ¬ ∃ r ∈ s.notActiveConditions, r.holds c = .ok true := by
    simp
  rw [reason?, Active]
  rcases hexplicit : s.explicit? c.config with _ | b
  · by_cases hrules : s.conditions = []
    · simp [hrules, hagainst]
    · by_cases hholds : ∃ r ∈ s.conditions, r.holds c = .ok true
      · simp [hrules, hholds, hagainst]
      · simp [hrules, hholds]
  · cases b <;> simp [hagainst]

/-- Whether a step is active does not depend on the order of its rules. -/
theorem active_congr (hname : s'.name = s.name) (hfor : s'.conditions.Perm s.conditions)
    (hagainst : s'.notActiveConditions.Perm s.notActiveConditions) :
    s'.Active c ↔ s.Active c := by
  have hempty : s'.conditions = [] ↔ s.conditions = [] :=
    ⟨fun h => List.nil_perm.mp (h ▸ hfor), fun h => List.perm_nil.mp (h ▸ hfor)⟩
  simp only [Active, explicit?, hname, hempty, hfor.mem_iff, hagainst.mem_iff]

/-! ### The verdict by evaluation -/

/-- The rules for a step are not looked at if its configuration says something of it. -/
theorem notMet?_of_explicit {b : Bool} (h : s.explicit? c.config = some b) :
    s.notMet? c = .ok (if b then none else some .explicit) := by
  obtain ⟨v, hv, hb⟩ := Option.bind_eq_some_iff.mp h
  have hbool : v = .bool b := by
    cases v <;> cases hb
    rfl
  rw [notMet?, hv, hbool]
  cases b <;> rfl

/-- Else they are, unless there are none. -/
theorem notMet?_of_not_explicit (h : s.explicit? c.config = none) :
    s.notMet? c = if s.conditions = [] then .ok none else
      (Rule.firstHolding? c s.conditions).map (fun r? =>
        if r?.isSome then none else some .noConditionMet) := by
  rw [explicit?] at h
  rw [notMet?]
  split
  · next hv => simp [hv, Value.asBool?] at h
  · next hv => simp [hv, Value.asBool?] at h
  · by_cases hrules : s.conditions = []
    · simp [hrules]
    · simp only [List.isEmpty_iff, hrules, if_false]
      rcases Rule.firstHolding? c s.conditions with e | _ | r <;> rfl

/-- The rules for a step fail where they are looked at, and nowhere else. -/
theorem notMet?_eq_error_iff :
    s.notMet? c = .error e ↔ s.explicit? c.config = none ∧ Rule.FailsWith c s.conditions e := by
  rcases hexplicit : s.explicit? c.config with _ | b
  · rw [notMet?_of_not_explicit hexplicit, ← Rule.firstHolding?_eq_error_iff]
    by_cases hrules : s.conditions = []
    · simp [hrules, Rule.firstHolding?]
    · rcases Rule.firstHolding? c s.conditions with e' | r? <;> simp [hrules, Except.map]
  · simp [notMet?_of_explicit hexplicit]

/-- Rules for a step that do not fail give a reason if the configuration or none of them speaks for
the step. -/
theorem eq_of_notMet?_eq_ok {x : Option Deactivation} (h : s.notMet? c = .ok x) :
    x = if s.explicit? c.config = some false then some .explicit
      else if s.explicit? c.config = none ∧ s.conditions ≠ [] ∧
        ¬ ∃ r ∈ s.conditions, r.holds c = .ok true then some .noConditionMet
      else none := by
  rcases hexplicit : s.explicit? c.config with _ | b
  · rw [notMet?_of_not_explicit hexplicit] at h
    by_cases hrules : s.conditions = []
    · rw [if_pos hrules] at h
      cases h
      simp [hrules]
    · rw [if_neg hrules] at h
      obtain ⟨r?, hfirst, rfl⟩ := map_eq_ok_iff.mp h
      have hholds : r?.isSome ↔ ∃ r ∈ s.conditions, r.holds c = .ok true := by
        simp [Rule.eq_find?_of_firstHolding? hfirst]
      simp only [← hholds]
      cases r? <;> simp [hrules]
  · rw [notMet?_of_explicit hexplicit] at h
    cases h
    cases b <;> simp

/-- **A step has no verdict** exactly if its rules or those against it fail, where they are looked at. -/
theorem deactivation?_eq_error_iff : s.deactivation? c = .error e ↔ s.FailsWith c e := by
  -- what the rules for the step say is not asked: only if they fail, those against it are not reached
  simp only [FailsWith, ← notMet?_eq_error_iff]
  rw [← Rule.firstHolding?_eq_error_iff, deactivation?]
  rcases s.notMet? c with e' | x
  · simp [bind, Except.bind]
  · rcases Rule.firstHolding? c s.notActiveConditions with e' | r? <;> simp [bind, Except.bind]

/-- **A verdict on a step** is the one that the rules have by themselves. -/
theorem deactivation?_eq_ok {x : Option Deactivation} (h : s.deactivation? c = .ok x) :
    x = s.reason? c := by
  rw [deactivation?] at h
  rcases hrules : s.notMet? c with e | y
  · rw [hrules] at h
    cases h
  · rcases hagainst : Rule.firstHolding? c s.notActiveConditions with e | r?
    · rw [hrules, hagainst] at h
      cases h
    · rw [hrules, hagainst] at h
      obtain rfl : y.or (r?.map (fun r => .notActiveCondition r.kind.name)) = x := Except.ok.inj h
      -- the reasons that the rules for the step give come first on both sides
      rw [eq_of_notMet?_eq_ok hrules, Rule.eq_find?_of_firstHolding? hagainst, reason?]
      split_ifs <;> rfl

/-- **Verdicts agree on whether a step is active**, in whatever order its rules stand. Some of them may
fail; then another order may give no verdict, but never the opposite one. -/
theorem eq_none_iff_of_perm {x x' : Option Deactivation} (h : s.deactivation? c = .ok x)
    (h' : s'.deactivation? c = .ok x') (hname : s'.name = s.name)
    (hfor : s'.conditions.Perm s.conditions)
    (hagainst : s'.notActiveConditions.Perm s.notActiveConditions) : x' = none ↔ x = none := by
  rw [deactivation?_eq_ok h, deactivation?_eq_ok h', reason?_eq_none_iff, reason?_eq_none_iff,
    active_congr hname hfor hagainst]

/-- If each of its rules and of those against it has a verdict, so has a step. -/
theorem deactivation?_of_settled (h : Rule.Settled c (s.conditions ++ s.notActiveConditions)) :
    s.deactivation? c = .ok (s.reason? c) := by
  rcases hverdict : s.deactivation? c with e | x
  · obtain ⟨-, hfails⟩ | ⟨-, hfails⟩ := deactivation?_eq_error_iff.mp hverdict
    · exact absurd hfails (Rule.Settled.not_failsWith fun r hr => h r (List.mem_append_left _ hr))
    · exact absurd hfails (Rule.Settled.not_failsWith fun r hr => h r (List.mem_append_right _ hr))
  · rw [deactivation?_eq_ok hverdict]

/-- **The verdict on a step.** Where each of its rules and of those against it has a verdict, it is the
reason that there is by them, and none exactly for an active step; whether it is active does not depend
on the order of the rules. Where rules fail, the step has no verdict because of an error exactly if they
fail with it one after the other, and those against the step even if it is not active anyway. -/
theorem verdict_of_rules (s : PipelineStep) (c : RuleCall) :
    (Rule.Settled c (s.conditions ++ s.notActiveConditions) →
      (s.deactivation? c = .ok none ↔ s.Active c) ∧ s.deactivation? c = .ok (s.reason? c) ∧
      ∀ s' : PipelineStep, s'.name = s.name → s'.conditions.Perm s.conditions →
        s'.notActiveConditions.Perm s.notActiveConditions →
          (s'.deactivation? c = .ok none ↔ s.deactivation? c = .ok none)) ∧
    ∀ e, s.deactivation? c = .error e ↔ s.FailsWith c e := by
  constructor
  · intro h
    have hs := deactivation?_of_settled h
    refine ⟨by rw [hs, Except.ok.injEq, reason?_eq_none_iff], hs, ?_⟩
    intro s' hname hfor hagainst
    have h' : Rule.Settled c (s'.conditions ++ s'.notActiveConditions) :=
      fun r hr => h r ((hfor.append hagainst).mem_iff.mp hr)
    have hs' := deactivation?_of_settled h'
    rw [hs, hs', Except.ok.injEq, Except.ok.injEq]
    exact eq_none_iff_of_perm hs hs' hname hfor hagainst
  · exact fun e => deactivation?_eq_error_iff

/-- A step that one of two rules makes active and a third keeps from being active, also if the rules
are turned around; and one that is not active anyway, with a rule against it that fails. -/
theorem verdict_of_rules_overridden :
    let blank : Rule := ⟨none, "", "", "", "", none, "", true⟩
    let tool : Rule := { blank with configKey := "tool" }
    let failing : Rule := { blank with config? := some [("a", []), ("b", [])] }
    let c : RuleCall := ⟨"lint", [("lint", .bool false), ("tool", .null)], fun _ => .ok [],
      fun _ => .error .notFound, RuleCall.defaultRoot⟩
    let s : PipelineStep := ⟨"scan", "", [blank, tool], [blank, tool], []⟩
    let s' : PipelineStep := ⟨"scan", "", [tool, blank], [tool, blank], []⟩
    let t : PipelineStep := ⟨"lint", "", [], [blank, failing], []⟩
    (Rule.Settled c (s.conditions ++ s.notActiveConditions) ∧
      s.deactivation? c = .ok (some (.notActiveCondition "configKey")) ∧
      s'.deactivation? c ≠ .ok none) ∧
      t.deactivation? c = .error (.misshapen "lint" "config" (.severalConfigKeys 2)) := by
  intro blank tool failing c s s' t
  have hblank : blank.holds c = .ok false := rfl
  have hpath : c.config.hasPath (Text.splitOn '/' "tool") = true := by decide
  have htool : tool.holds c = .ok true := congrArg Except.ok hpath
  have hfailing : failing.holds c = .error (.misshapen "lint" "config" (.severalConfigKeys 2)) := rfl
  have hsettled : Rule.Settled c (s.conditions ++ s.notActiveConditions) := by
    intro r hr
    have hr' : r = blank ∨ r = tool := by
      simp only [s, List.cons_append, List.nil_append, List.mem_cons, List.not_mem_nil, or_false] at hr
      tauto
    rcases hr' with rfl | rfl
    · exact ⟨false, hblank⟩
    · exact ⟨true, htool⟩
  obtain ⟨-, hreason, horder⟩ := (verdict_of_rules s c).1 hsettled
  have hs : s.deactivation? c = .ok (some (.notActiveCondition "configKey")) := by
    have hmet : ∃ r ∈ s.conditions, r.holds c = .ok true := ⟨tool, by simp [s], htool⟩
    have hfind : s.notActiveConditions.find? (fun r => r.holds c = .ok true) = some tool := by
      simp [s, List.find?, hblank, htool]
    rw [hreason, reason?, if_neg nofun, if_neg fun h => h.2.2 hmet, hfind]
    rfl
  have hswap := horder s' rfl (List.Perm.swap _ _ _) (List.Perm.swap _ _ _)
  have ht : t.FailsWith c (.misshapen "lint" "config" (.severalConfigKeys 2)) := by
    refine .inr ⟨?_, [blank], failing, [], rfl, hfailing, by simpa using hblank⟩
    rintro ⟨e, hexplicit, -⟩
    cases hexplicit
  refine ⟨⟨hsettled, hs, ?_⟩, ((verdict_of_rules t c).2 _).mpr ht⟩
  rw [ne_eq, hswap, hs]
  simp

end PipelineStep

end PipelineConfig
