import Mathlib.Data.List.Basic
import Mathlib.Tactic.SplitIfs
import Mathlib.Tactic.Tauto
import PipelineConfig.Condition.Checks
import PipelineConfig.Proofs.Assoc

/-!
# The parameters that the built-in conditions take

Each built-in condition takes parameters of one form and refuses all others. The forms are few: a
comparison has two parameters, and every other condition has one, whose name is among those that
`PipelineConfig.Checks.parameterNames` lists for it and whose value is a text that is not empty
(`PipelineConfig.Checks.Takes`).

The conditions make sure of their form each in an order of its own. Some look at the name of the parameter
first and some at its value, and `file-exists` only gets to the name when it has the value that belongs to
it. What they have in common is that they are done with this before they look at anything else
(`PipelineConfig.Checks.Screens`): the fault of parameters that are refused depends on them alone, and
parameters that are accepted are never found at fault later. So a stage condition document is malformed
or it is not, and this does not hang on a setting that happens to be there or on the files of a project
(`PipelineConfig.Checks.misshapen_iff_not_takes`).
-/

namespace PipelineConfig

/-! ### Errors of what is looked at -/

/-- An error of what a condition looks at: a file or a pattern, or the type of what has been found. The
other errors are about the condition itself. -/
def ConditionError.OfSubject : ConditionError → Prop
  | notParsed _ _ | wrongType _ _ _ | patternFailed _ _ | unreadable _ _ => True
  | misshapen _ _ _ | unknown _ _ | noConfig _ _ => False

/-- The only errors of a result are about what is looked at. -/
def OfSubject {α : Type} (result : Except ConditionError α) : Prop :=
  ∀ e, result = .error e → e.OfSubject

section OfSubject

variable {α β : Type} {glob : Glob} {openFile : OpenFile} {typeError : TypeFault → ConditionError}
  {script : String}

theorem ofSubject_ok (a : α) : OfSubject (.ok a) := by
  rintro e ⟨⟩

theorem ofSubject_error {e : ConditionError} (h : e.OfSubject) : OfSubject (.error e : Except _ α) := by
  rintro _ ⟨⟩
  exact h

theorem OfSubject.bind {result : Except ConditionError α} {f : α → Except ConditionError β}
    (h : OfSubject result) (hf : ∀ a, OfSubject (f a)) : OfSubject (result >>= f) := by
  rcases result with e | a
  · exact ofSubject_error (h e rfl)
  · exact hf a

theorem ofSubject_typeError (c : ConditionCall) (fault : TypeFault) :
    OfSubject (c.typeError fault : Verdict) :=
  ofSubject_error trivial

theorem ofSubject_expand (glob : Glob) (pattern : String) : OfSubject (Checks.expand glob pattern) := by
  rw [Checks.expand]
  split
  · exact ofSubject_ok _
  · exact ofSubject_error trivial

theorem ofSubject_matchesFile (glob : Glob) (pattern : String) :
    OfSubject (Checks.matchesFile glob pattern) :=
  (ofSubject_expand glob pattern).bind fun _ => ofSubject_ok _

theorem ofSubject_packageDeclares (htype : ∀ fault, (typeError fault).OfSubject) (path : String) :
    OfSubject (Checks.packageDeclares openFile typeError script path) := by
  rw [Checks.packageDeclares]
  split
  · exact ofSubject_error trivial
  · split
    · exact ofSubject_error trivial
    · split
      · exact ofSubject_ok _
      · exact ofSubject_ok _
      · exact ofSubject_error (htype _)

theorem ofSubject_anyPackageDeclares (htype : ∀ fault, (typeError fault).OfSubject)
    (paths : List String) :
    OfSubject (Checks.anyPackageDeclares openFile typeError script paths) := by
  induction paths with
  | nil => exact ofSubject_ok _
  | cons path paths ih =>
    rw [Checks.anyPackageDeclares]
    refine (ofSubject_packageDeclares htype path).bind fun declares => ?_
    split
    · exact ofSubject_ok _
    · exact ih

theorem ofSubject_declaresScript (htype : ∀ fault, (typeError fault).OfSubject) :
    OfSubject (Checks.declaresScript glob openFile typeError script) :=
  (ofSubject_expand glob _).bind fun _ => ofSubject_anyPackageDeclares htype _

end OfSubject

namespace Checks

/-! ### Forms -/

/-- The names that a single parameter may have, for the conditions that take one. -/
def parameterNames : List (String × List String) :=
  [("config-exists", ["configKey", "stepName"]),
    ("file-exists", ["filePattern", "filePatternFromConfig"]),
    ("is-active", ["activation"]),
    ("npm-script-exists", ["npmScript"])]

/-- **The forms of parameters** that the built-in conditions take. -/
inductive Takes : (ref : String) → List ConditionParam → Prop
  /-- The name of a setting, and a text or any list of texts to compare it with. -/
  | comparison {key : String} {v : ParamValue} (hkey : key ≠ "") (hv : v ≠ .text "") :
    Takes "config-equals" [⟨"configKey", .text key⟩, ⟨"contains", v⟩]
  /-- A text under one of the names that the condition knows. -/
  | single {ref name s : String} {names : List String}
    (hnames : Assoc.get? parameterNames ref = some names) (hname : name ∈ names) (hs : s ≠ "") :
    Takes ref [⟨name, .text s⟩]

theorem takes_configEquals_iff {params : List ConditionParam} :
    Takes "config-equals" params ↔
      ∃ key v, key ≠ "" ∧ v ≠ .text "" ∧ params = [⟨"configKey", .text key⟩, ⟨"contains", v⟩] := by
  constructor
  · rintro (⟨hkey, hv⟩ | ⟨hnames, -, -⟩)
    · exact ⟨_, _, hkey, hv, rfl⟩
    · simp [parameterNames, Assoc.get?_cons] at hnames
  · rintro ⟨key, v, hkey, hv, rfl⟩
    exact .comparison hkey hv

theorem takes_single_iff {ref : String} {names : List String} {params : List ConditionParam}
    (h : Assoc.get? parameterNames ref = some names) :
    Takes ref params ↔ ∃ name s, name ∈ names ∧ s ≠ "" ∧ params = [⟨name, .text s⟩] := by
  constructor
  · rintro (⟨-, -⟩ | ⟨hnames, hname, hs⟩)
    · simp [parameterNames, Assoc.get?_cons] at h
    · obtain rfl := Option.some.inj (hnames.symm.trans h)
      exact ⟨_, _, hname, hs, rfl⟩
  · rintro ⟨name, s, hname, hs, rfl⟩
    exact .single h hname hs

/-! ### Screening -/

/-- Parameters are refused for a fault that depends on nothing but them. -/
def Refuses (handler : ConditionHandler) (params : List ConditionParam) : Prop :=
  ∃ fault, ∀ c : ConditionCall, c.params = params → handler c = c.shapeError fault

/-- **A condition screens its parameters** for its form: all others are refused, and those of the form
are not at fault, whatever is looked at. -/
structure Screens (handler : ConditionHandler) (ref : String) : Prop where
  refused : ∀ params, ¬ Takes ref params → Refuses handler params
  accepted : ∀ c : ConditionCall, Takes ref c.params → OfSubject (handler c)

variable {handler : ConditionHandler} {ref : String} {names : List String} {v : ParamValue}

theorem nonEmptyText_text (c : ConditionCall) {s : String} (hs : s ≠ "") :
    c.nonEmptyText (.text s) = .ok s := by
  simp [ConditionCall.nonEmptyText, hs]

/-- A value that is no text, or an empty one, is refused for what it is. -/
theorem nonEmptyText_refused (h : ¬ ∃ s, s ≠ "" ∧ v = .text s) :
    ∃ fault, ∀ c : ConditionCall, c.nonEmptyText v = c.shapeError fault := by
  rcases v with s | items
  · have hs : s = "" := by
      by_contra hne
      exact h ⟨s, hne, rfl⟩
    exact ⟨.emptyText, fun c => by simp [ConditionCall.nonEmptyText, hs]⟩
  · exact ⟨.notText, fun _ => rfl⟩

/-- Conditions with a single parameter refuse any other number of them. -/
theorem countError_of_not_single {c : ConditionCall} (judge : ConditionParam → Verdict)
    (h : ¬ ∃ p, c.params = [p]) :
    (match c.params with
      | [p] => judge p
      | _ => c.countError 1) = c.countError 1 := by
  split
  · exact absurd ⟨_, ‹_›⟩ h
  · rfl

/-- **Screening a single parameter**: its number, its value and its name may each be at fault, and in
which order this is found out does not matter. -/
theorem screens_single (hnames : Assoc.get? parameterNames ref = some names)
    (hcount : ∀ c : ConditionCall, (¬ ∃ p, c.params = [p]) → handler c = c.countError 1)
    (hvalue : ∀ p : ConditionParam, (¬ ∃ s, s ≠ "" ∧ p.value = .text s) → Refuses handler [p])
    (hname : ∀ name s, name ∉ names → s ≠ "" → Refuses handler [⟨name, .text s⟩])
    (haccepted : ∀ (c : ConditionCall) name s, name ∈ names → s ≠ "" →
      c.params = [⟨name, .text s⟩] → OfSubject (handler c)) : Screens handler ref where
  refused := by
    intro params hparams
    by_cases hsingle : ∃ p, params = [p]
    · obtain ⟨⟨name, v⟩, rfl⟩ := hsingle
      by_cases htext : ∃ s, s ≠ "" ∧ v = .text s
      · obtain ⟨s, hs, rfl⟩ := htext
        exact hname name s (fun hmem => hparams (.single hnames hmem hs)) hs
      · exact hvalue ⟨name, v⟩ htext
    · refine ⟨.count 1 params.length, ?_⟩
      rintro c rfl
      exact hcount c hsingle
  accepted := by
    intro c hc
    obtain ⟨name, s, hmem, hs, hparams⟩ := (takes_single_iff hnames).mp hc
    exact haccepted c name s hmem hs hparams

/-! ### The conditions -/

section Conditions

variable {c : ConditionCall} {name s : String}

/-- What a comparison answers when its parameters are accepted. -/
def comparison (c : ConditionCall) (key : String) (v : ParamValue) : Verdict :=
  match c.config.settingOf? c.step key with
  | none => .ok false
  | some (.string s) =>
    match v with
    | .text expected => .ok (s = expected)
    | .list candidates => .ok (candidates.contains s)
  | some other => c.typeError (.comparedNotText key other.kind)

theorem configEquals_of_names {k v : ParamValue}
    (hc : c.params = [⟨"configKey", k⟩, ⟨"contains", v⟩]) :
    configEquals c = c.nonEmptyText k >>= fun key =>
      if v.isEmpty then c.shapeError (.emptyComparison "contains") else comparison c key v := by
  simp only [configEquals, hc, ne_eq, not_true_eq_false, or_self, if_false]
  rfl

theorem ofSubject_comparison (c : ConditionCall) (key : String) (v : ParamValue) :
    OfSubject (comparison c key v) := by
  rw [comparison]
  split
  · exact ofSubject_ok _
  · split <;> exact ofSubject_ok _
  · exact ofSubject_typeError _ _

theorem screens_configEquals : Screens configEquals "config-equals" where
  refused := by
    intro params hparams
    by_cases htwo : ∃ p q, params = [p, q]
    · obtain ⟨⟨name, k⟩, ⟨name', v⟩, rfl⟩ := htwo
      by_cases hnames : name ≠ "configKey" ∨ name' ≠ "contains"
      · exact ⟨.namesDiffer "configKey" "contains", fun c hc => by simp [configEquals, hc, hnames]⟩
      · obtain ⟨rfl, rfl⟩ : name = "configKey" ∧ name' = "contains" := by tauto
        by_cases htext : ∃ key, key ≠ "" ∧ k = .text key
        · obtain ⟨key, hkey, rfl⟩ := htext
          have hv : v = .text "" := by
            by_contra hv
            exact hparams (.comparison hkey hv)
          refine ⟨.emptyComparison "contains", fun c hc => ?_⟩
          rw [configEquals_of_names hc, nonEmptyText_text c hkey, hv]
          rfl
        · obtain ⟨fault, hfault⟩ := nonEmptyText_refused htext
          refine ⟨fault, fun c hc => ?_⟩
          rw [configEquals_of_names hc, hfault c]
          rfl
    · refine ⟨.count 2 params.length, ?_⟩
      rintro c rfl
      rw [configEquals]
      split
      · exact absurd ⟨_, _, ‹_›⟩ htwo
      · rfl
  accepted := by
    intro c hc
    obtain ⟨key, v, hkey, hv, hparams⟩ := takes_configEquals_iff.mp hc
    have hv' : v.isEmpty = false := by
      rcases v with s | items
      · simpa [ParamValue.isEmpty] using hv
      · rfl
    rw [configEquals_of_names hparams, nonEmptyText_text c hkey, hv']
    exact ofSubject_comparison c key v

theorem configExists_text (hc : c.params = [⟨name, .text s⟩]) (hs : s ≠ "") :
    configExists c =
      if name = "configKey" then .ok (c.config.settingOf? c.step s).isSome
      else if name = "stepName" then
        .ok ((c.config.section? "steps").bind (fun steps => Mapping.section? steps s)).isSome
      else c.shapeError (.unsupported name) := by
  simp only [configExists, hc, nonEmptyText_text c hs]
  rfl

theorem screens_configExists : Screens configExists "config-exists" := by
  refine screens_single rfl ?_ ?_ ?_ ?_
  · exact fun c hc => countError_of_not_single _ hc
  · intro p hp
    obtain ⟨fault, hfault⟩ := nonEmptyText_refused hp
    refine ⟨fault, fun c hc => ?_⟩
    simp only [configExists, hc, hfault c]
    rfl
  · intro name s hname hs
    simp only [List.mem_cons, List.not_mem_nil, or_false, not_or] at hname
    refine ⟨.unsupported name, fun c hc => ?_⟩
    rw [configExists_text hc hs, if_neg hname.1, if_neg hname.2]
  · intro c name s hname hs hc
    rw [configExists_text hc hs]
    simp only [List.mem_cons, List.not_mem_nil, or_false] at hname
    rcases hname with rfl | rfl
    · exact ofSubject_ok _
    · exact ofSubject_ok _

/-- What a look for files answers whose pattern is a setting. -/
def matchesSetting (c : ConditionCall) (key : String) : Verdict :=
  match c.config.settingOf? c.step key with
  | none => .ok false
  | some (.string pattern) => matchesFile c.glob pattern
  | some other => c.typeError (.patternNotText key other.kind)

theorem ofSubject_matchesSetting (c : ConditionCall) (key : String) :
    OfSubject (matchesSetting c key) := by
  rw [matchesSetting]
  split
  · exact ofSubject_ok _
  · exact ofSubject_matchesFile _ _
  · exact ofSubject_typeError _ _

theorem fileExists_text (hc : c.params = [⟨name, .text s⟩]) (hs : s ≠ "") :
    fileExists c =
      if name = "filePattern" then matchesFile c.glob s
      else if name = "filePatternFromConfig" then matchesSetting c s
      else c.shapeError (.unsupported name) := by
  simp only [fileExists, hc, nonEmptyText_text c hs]
  rfl

theorem screens_fileExists : Screens fileExists "file-exists" := by
  refine screens_single rfl ?_ ?_ ?_ ?_
  · exact fun c hc => countError_of_not_single _ hc
  · intro p hp
    obtain ⟨fault, hfault⟩ := nonEmptyText_refused hp
    refine ⟨fault, fun c hc => ?_⟩
    simp only [fileExists, hc, hfault c]
    rfl
  · intro name s hname hs
    simp only [List.mem_cons, List.not_mem_nil, or_false, not_or] at hname
    refine ⟨.unsupported name, fun c hc => ?_⟩
    rw [fileExists_text hc hs, if_neg hname.1, if_neg hname.2]
  · intro c name s hname hs hc
    rw [fileExists_text hc hs]
    simp only [List.mem_cons, List.not_mem_nil, or_false] at hname
    rcases hname with rfl | rfl
    · exact ofSubject_matchesFile _ _
    · exact ofSubject_matchesSetting _ _

/-- The verdict that a text gives by itself. -/
def wordVerdict (c : ConditionCall) (s : String) : Verdict :=
  if Text.lowerAscii s = "true" then .ok true
  else if Text.lowerAscii s = "false" then .ok false
  else c.typeError (.notBoolean s)

theorem ofSubject_wordVerdict (c : ConditionCall) (s : String) : OfSubject (wordVerdict c s) := by
  rw [wordVerdict]
  split_ifs
  · exact ofSubject_ok _
  · exact ofSubject_ok _
  · exact ofSubject_typeError _ _

theorem isActive_of_name {v : ParamValue} (hc : c.params = [⟨"activation", v⟩]) :
    isActive c = c.nonEmptyText v >>= wordVerdict c := by
  simp only [isActive, hc, ne_eq, not_true_eq_false, if_false]
  rfl

theorem npmScriptExists_of_name {v : ParamValue} (hc : c.params = [⟨"npmScript", v⟩]) :
    npmScriptExists c =
      c.nonEmptyText v >>= declaresScript c.glob c.openFile (.wrongType c.step c.ref) := by
  simp only [npmScriptExists, hc, ne_eq, not_true_eq_false, if_false]

/-- **Screening by the name first**: where only one name is known, and the value is not looked at under
any other. -/
theorem screens_named {known : String} {judge : ConditionCall → String → Verdict}
    (hnames : Assoc.get? parameterNames ref = some [known])
    (hcount : ∀ c : ConditionCall, (¬ ∃ p, c.params = [p]) → handler c = c.countError 1)
    (hother : ∀ (c : ConditionCall) name v, name ≠ known → c.params = [⟨name, v⟩] →
      handler c = c.shapeError (.unsupported name))
    (hknown : ∀ (c : ConditionCall) v, c.params = [⟨known, v⟩] →
      handler c = c.nonEmptyText v >>= judge c)
    (hjudge : ∀ c s, OfSubject (judge c s)) : Screens handler ref := by
  refine screens_single hnames hcount ?_ ?_ ?_
  · rintro ⟨name, v⟩ hp
    by_cases hname : name = known
    · obtain ⟨fault, hfault⟩ := nonEmptyText_refused hp
      refine ⟨fault, fun c hc => ?_⟩
      rw [hknown c v (hname ▸ hc), hfault c]
      rfl
    · exact ⟨.unsupported name, fun c hc => hother c name v hname hc⟩
  · intro name s hname hs
    exact ⟨.unsupported name, fun c hc => hother c name _ (by simpa using hname) hc⟩
  · intro c name s hname hs hc
    obtain rfl : name = known := by simpa using hname
    rw [hknown c _ hc, nonEmptyText_text c hs]
    exact hjudge c s

theorem screens_isActive : Screens isActive "is-active" := by
  refine screens_named rfl ?_ ?_ (fun _ _ hc => isActive_of_name hc) ofSubject_wordVerdict
  · exact fun c hc => countError_of_not_single _ hc
  · intro c name v hname hc
    simp only [isActive, hc, ne_eq, hname, not_false_eq_true, if_true]

theorem screens_npmScriptExists : Screens npmScriptExists "npm-script-exists" := by
  refine screens_named rfl ?_ ?_ (fun _ _ hc => npmScriptExists_of_name hc) ?_
  · exact fun c hc => countError_of_not_single _ hc
  · intro c name v hname hc
    simp only [npmScriptExists, hc, ne_eq, hname, not_false_eq_true, if_true]
  · exact fun c s => ofSubject_declaresScript fun _ => trivial

end Conditions

/-! ### All of them -/

/-- The conditions that are always there screen their parameters. -/
theorem screens_builtin {handler : ConditionHandler} {ref : String}
    (h : Assoc.get? Registry.builtin.handlers ref = some handler) : Screens handler ref := by
  have hhandlers : Registry.builtin.handlers = [("config-equals", configEquals),
      ("config-exists", configExists), ("file-exists", fileExists), ("is-active", isActive),
      ("npm-script-exists", npmScriptExists)] := rfl
  have hmem := Assoc.mem_of_get? h
  simp only [hhandlers, List.mem_cons, Prod.mk.injEq, List.not_mem_nil, or_false] at hmem
  rcases hmem with ⟨rfl, rfl⟩ | ⟨rfl, rfl⟩ | ⟨rfl, rfl⟩ | ⟨rfl, rfl⟩ | ⟨rfl, rfl⟩
  · exact screens_configEquals
  · exact screens_configExists
  · exact screens_fileExists
  · exact screens_isActive
  · exact screens_npmScriptExists

/-- **The built-in conditions accept exactly the parameters of their forms.** Whether parameters are
refused depends on nothing but the condition and them, and neither does for what fault, so a refusal does
not wait for a setting or a file to be looked at. With parameters of its form a condition has a verdict
or fails because of what it has looked at. -/
theorem misshapen_iff_not_takes (condition : Condition)
    (hbuiltin : Registry.builtin.contains condition.ref = true) :
    (∀ step config glob openFile,
      (∃ step' ref fault, Registry.builtin.evaluate condition step config glob openFile
        = .error (.misshapen step' ref fault)) ↔ ¬ Takes condition.ref condition.params) ∧
    (¬ Takes condition.ref condition.params → ∃ fault, ∀ step config glob openFile,
      Registry.builtin.evaluate condition step config glob openFile
        = .error (.misshapen step condition.ref fault)) ∧
    (Takes condition.ref condition.params → ∀ step config glob openFile,
      (∃ holds, Registry.builtin.evaluate condition step config glob openFile = .ok holds) ∨
      ∃ e, Registry.builtin.evaluate condition step config glob openFile = .error e ∧ e.OfSubject) := by
  obtain ⟨handler, hhandler⟩ := Option.isSome_iff_exists.mp hbuiltin
  have hscreens : Screens handler condition.ref := screens_builtin hhandler
  have hevaluate (step config glob openFile) :
      Registry.builtin.evaluate condition step config glob openFile =
        handler ⟨step, condition.ref, condition.params, config, glob, openFile⟩ := by
    rw [Registry.evaluate, hhandler]
  have hrefused (h : ¬ Takes condition.ref condition.params) : ∃ fault, ∀ step config glob openFile,
      Registry.builtin.evaluate condition step config glob openFile
        = .error (.misshapen step condition.ref fault) := by
    obtain ⟨fault, hfault⟩ := hscreens.refused condition.params h
    refine ⟨fault, fun step config glob openFile => ?_⟩
    rw [hevaluate]
    exact hfault _ rfl
  have haccepted (h : Takes condition.ref condition.params) (step config glob openFile) :
      OfSubject (Registry.builtin.evaluate condition step config glob openFile) := by
    rw [hevaluate]
    exact hscreens.accepted _ h
  refine ⟨fun step config glob openFile => ⟨?_, fun h => ?_⟩, hrefused, ?_⟩
  · rintro ⟨step', ref, fault, hfault⟩ htakes
    exact haccepted htakes step config glob openFile _ hfault
  · obtain ⟨fault, hfault⟩ := hrefused h
    exact ⟨step, condition.ref, fault, hfault step config glob openFile⟩
  · intro htakes step config glob openFile
    have h := haccepted htakes step config glob openFile
    rcases hresult : Registry.builtin.evaluate condition step config glob openFile with e | holds
    · exact .inr ⟨e, rfl, h e hresult⟩
    · exact .inl ⟨holds, rfl⟩

/-- Parameters of no form, which are refused although the files could not even be looked for; and a
comparison with no texts at all, which is accepted. -/
theorem misshapen_iff_not_takes_unreadable :
    let swapped : Condition := ⟨"config-equals", [⟨"contains", .text "npm"⟩, ⟨"configKey", .text "tool"⟩]⟩
    let unnamed : Condition := ⟨"file-exists", [⟨"pattern", .list []⟩]⟩
    let unmatched : Condition := ⟨"config-equals", [⟨"configKey", .text "tool"⟩, ⟨"contains", .list []⟩]⟩
    let failing : Glob := fun _ => .error .notAName
    (∀ config, ∃ step ref fault, Registry.builtin.evaluate swapped "scan" config failing
      (fun _ => .error .notFound) = .error (.misshapen step ref fault)) ∧
    (∃ fault, ∀ step config glob openFile, Registry.builtin.evaluate unnamed step config glob openFile
      = .error (.misshapen step "file-exists" fault)) ∧
    ∀ config, (∃ holds, Registry.builtin.evaluate unmatched "scan" config failing
        (fun _ => .error .notFound) = .ok holds) ∨
      ∃ e, Registry.builtin.evaluate unmatched "scan" config failing
        (fun _ => .error .notFound) = .error e ∧ e.OfSubject := by
  intro swapped unnamed unmatched failing
  have hswapped : ¬ Takes swapped.ref swapped.params := by
    intro h
    obtain ⟨key, v, -, -, hparams⟩ := takes_configEquals_iff.mp h
    simp [swapped] at hparams
  have hunnamed : ¬ Takes unnamed.ref unnamed.params := by
    intro h
    obtain ⟨name, s, -, -, hparams⟩ := (takes_single_iff rfl).mp h
    simp [unnamed] at hparams
  have hunmatched : Takes unmatched.ref unmatched.params := .comparison (by decide) (by decide)
  refine ⟨fun config => ?_, ?_, fun config => ?_⟩
  · exact ((misshapen_iff_not_takes swapped (by decide)).1 "scan" config failing _).mpr hswapped
  · exact (misshapen_iff_not_takes unnamed (by decide)).2.1 hunnamed
  · exact (misshapen_iff_not_takes unmatched (by decide)).2.2 hunmatched "scan" config failing _

end Checks

end PipelineConfig
