import PipelineConfig.Proofs.Independence
import PipelineConfig.Proofs.Segments
import PipelineConfig.Proofs.Settable

/-!
# Sections under canonical names

Aliases are applied to a section in one walk over the parameters, which fills slots that later
parameters may read. Then the plain aliases are dropped, whichever parameter they belong to. This
file says what is left, without the walk (`PipelineConfig.applyAliases_canonical`):

| key | what stands there afterwards |
|---|---|
| the name of a parameter that the section may set | what the section has for it, if anything; else what was there |
| a plain alias of such a parameter | nothing |
| any other | what was there |

What a section has for a parameter (`PipelineConfig.Parameter.found?`) is its own value, or else that
of its first alias with one. Null counts as none, and all of it is looked up in the *original*
section. The one assumption is that names and aliases are apart: names are distinct, and no alias
begins with one of them. Then no parameter reads what another one writes
(`PipelineConfig.independent_canonicalize`), and a plain alias is never a name, so that it is always
dropped. It does not matter whether parameters share an alias, or whether the plain alias of one
begins the path alias of another: the walk is over before anything is dropped.

The outcome is canonical in that applying aliases to it changes nothing and uses none of them. A
parameter that has no value by then has found none in the original section, and all that has happened
since under its aliases is that some have been dropped.
-/

namespace PipelineConfig

/-! ### Aliases -/

namespace Alias

variable {a : Alias} {m : Mapping} {v : Value}

/-- The path of a plain alias is its name. -/
theorem path_of_isFlat (h : a.isFlat = true) : a.path = [a.name] := by
  have hnone : '/' ∉ a.name.toList := by simpa [isFlat] using h
  rw [path, Text.splitOn, (Text.splitChars_eq_singleton_iff '/').mpr ⟨hnone, rfl⟩,
    List.map_singleton, String.ofList_toList]

/-- Where a path does not begin, it leads to nothing. -/
theorem value?_of_head_none (h : ∀ first ∈ a.path.head?, Assoc.get? m first = none) :
    a.value? m = none :=
  (a.value?_congr h).trans a.value?_nil

theorem isNull_of_value? (h : a.value? m = some v) : v.isNull = false := by
  rw [value?] at h
  split at h
  · rw [Option.ite_none_left_eq_some] at h
    obtain ⟨hnull, hv⟩ := h
    rw [← Option.some.inj hv]
    exact Bool.eq_false_iff.mpr hnull
  · cases h

end Alias

/-! ### One parameter -/

namespace Parameter

/-- **What a section has for a parameter**: its own value, or else that of its first alias with
one. -/
def found? (p : Parameter) (m : Mapping) : Option Value :=
  (m.nonNull? p.name).or (p.aliases.findSome? (fun a => a.value? m))

variable {p : Parameter} {m : Mapping} {v : Value}

theorem found?_eq_none_iff :
    p.found? m = none ↔ m.nonNull? p.name = none ∧ ∀ a ∈ p.aliases, a.value? m = none := by
  rw [found?, Option.or_eq_none_iff, List.findSome?_eq_none_iff]

theorem isNull_of_found? (h : p.found? m = some v) : v.isNull = false := by
  rcases Option.or_eq_some_iff.mp h with hown | ⟨-, halias⟩
  · exact (Mapping.nonNull?_eq_some_iff.mp hown).2
  · obtain ⟨a, -, ha⟩ := List.exists_of_findSome?_eq_some halias
    exact Alias.isNull_of_value? ha

/-- What stands under the name of a parameter once its aliases have been applied. -/
theorem get?_canonicalize_self (p : Parameter) (m : Mapping) :
    Assoc.get? (p.canonicalize m).1 p.name = (p.found? m).or (Assoc.get? m p.name) := by
  have haliased : p.aliases.findSome? (fun a => a.value? m) = (p.aliased? m).map Prod.snd := by
    rw [aliased?, List.map_findSome?]
    refine findSome?_congr fun a _ => ?_
    simp [Option.map_map, Function.comp_def]
  rw [canonicalize, found?, haliased]
  rcases hown : m.nonNull? p.name with _ | v
  · rcases p.aliased? m with _ | ⟨a, v⟩ <;> simp
  · simp [(Mapping.nonNull?_eq_some_iff.mp hown).1]

/-- Nothing is done for a parameter that has a value, or finds none. -/
theorem canonicalize_eq_self (h : m.nonNull? p.name = none → ∀ a ∈ p.aliases, a.value? m = none) :
    p.canonicalize m = (m, []) := by
  rw [canonicalize]
  by_cases hown : m.nonNull? p.name = none
  · have hnone : p.aliased? m = none := by
      rw [aliased?, List.findSome?_eq_none_iff]
      intro a ha
      rw [h hown a ha, Option.map_none]
    simp [hown, hnone]
  · simp [Option.isSome_iff_ne_none, hown]

end Parameter

/-! ### All parameters -/

section

variable {parameters : List Parameter} {allow : List String} {m : Mapping} {key : String}

theorem canonicalizeAll_eq_self (h : ∀ p ∈ parameters, p.canonicalize m = (m, [])) :
    canonicalizeAll parameters m = (m, []) := by
  induction parameters with
  | nil => rfl
  | cons p rest ih =>
    rw [canonicalizeAll, h p List.mem_cons_self]
    simp [ih fun q hq => h q (List.mem_cons_of_mem p hq)]

/-- A section is left alone if nothing is to be done for any parameter and nothing to be dropped. -/
theorem applyAliases_eq_self (hdone : ∀ p ∈ admitted parameters allow, p.canonicalize m = (m, []))
    (hdropped : ∀ name ∈ superseded parameters allow, Assoc.get? m name = none) :
    applyAliases parameters allow m = (m, []) := by
  have hwalk : canonicalizeAll (admitted parameters allow) m = (m, []) :=
    canonicalizeAll_eq_self hdone
  have herase : (superseded parameters allow).foldl Assoc.erase m = m :=
    Assoc.eraseAll_eq_self hdropped
  change ((superseded parameters allow).foldl Assoc.erase
    (canonicalizeAll (admitted parameters allow) m).1,
      (canonicalizeAll (admitted parameters allow) m).2) = _
  rw [hwalk, herase]

theorem name_notMem_superseded {p : Parameter} (hp : p ∈ parameters) (allow : List String) :
    p.name ∉ superseded parameters allow := by
  intro hmem
  have hnone := (List.mem_filter.mp hmem).2
  simp only [Bool.not_eq_true', List.any_eq_false, decide_eq_true_eq] at hnone
  exact hnone p hp rfl

theorem get?_applyAliases_of_superseded (hkey : key ∈ superseded parameters allow) (m : Mapping) :
    Assoc.get? (applyAliases parameters allow m).1 key = none := by
  rw [applyAliases_eq]
  exact Assoc.get?_eraseAll_of_mem hkey _

end

section Apart

variable {parameters : List Parameter} {allow : List String} {key : String}
  (haliases : ∀ p ∈ parameters, ∀ a ∈ p.aliases, ∀ first ∈ a.path.head?,
    first ∉ parameters.map Parameter.name)
include haliases

/-- All plain aliases of the parameters that a section may set are dropped, because none is the name
of a parameter. -/
theorem mem_superseded_iff : key ∈ superseded parameters allow ↔
    ∃ p ∈ admitted parameters allow, ∃ a ∈ p.aliases, a.isFlat = true ∧ a.name = key := by
  rw [superseded, List.mem_filter, ← mem_flatAliases, and_iff_left_iff_imp, mem_flatAliases]
  rintro ⟨p, hp, a, ha, hflat, rfl⟩
  have hhead : a.name ∈ a.path.head? := by
    rw [Alias.path_of_isFlat hflat]
    rfl
  have hname := haliases p (List.mem_filter.mp hp).1 a ha a.name hhead
  simpa using hname

variable (hnames : (parameters.map Parameter.name).Nodup)
include hnames

/-- **Under the name of a parameter** that the section may set. -/
theorem get?_applyAliases_of_admitted {p : Parameter} (hp : p ∈ admitted parameters allow)
    (m : Mapping) : Assoc.get? (applyAliases parameters allow m).1 p.name
      = (p.found? m).or (Assoc.get? m p.name) := by
  rw [applyAliases_eq, Assoc.get?_eraseAll_of_not_mem
      (name_notMem_superseded (List.mem_filter.mp hp).1 allow),
    (independent_canonicalize_admitted hnames haliases allow).get?_foldl_of_mem hp,
    p.get?_canonicalize_self]

/-- **Under any other key** that is not dropped. -/
theorem get?_applyAliases_of_other (hkey : key ∉ (admitted parameters allow).map Parameter.name)
    (hkept : key ∉ superseded parameters allow) (m : Mapping) :
    Assoc.get? (applyAliases parameters allow m).1 key = Assoc.get? m key := by
  rw [applyAliases_eq, Assoc.get?_eraseAll_of_not_mem hkept,
    (independent_canonicalize_admitted hnames haliases allow).get?_foldl_of_not_mem hkey]

/-- A parameter has a value afterwards if and only if the section had one for it. -/
theorem nonNull?_applyAliases {p : Parameter} (hp : p ∈ admitted parameters allow) (m : Mapping) :
    (applyAliases parameters allow m).1.nonNull? p.name = p.found? m := by
  have hget := get?_applyAliases_of_admitted haliases hnames hp m
  rcases hfound : p.found? m with _ | v
  · rw [hfound, Option.none_or] at hget
    rw [Mapping.nonNull?, hget]
    exact (Parameter.found?_eq_none_iff.mp hfound).1
  · rw [hfound, Option.some_or] at hget
    exact Mapping.nonNull?_eq_some_iff.mpr ⟨hget, Parameter.isNull_of_found? hfound⟩

/-- An alias that led nowhere leads nowhere afterwards, whatever has been dropped. -/
theorem value?_applyAliases_of_none {p : Parameter} (hp : p ∈ parameters) {a : Alias}
    (ha : a ∈ p.aliases) {m : Mapping} (h : a.value? m = none) :
    a.value? (applyAliases parameters allow m).1 = none := by
  rcases hfirst : a.path.head? with _ | first
  · exact Alias.value?_of_head_none (by simp [hfirst])
  -- dropping an alias takes values away only, so what could bring one is what has been written
  by_cases hdropped : first ∈ superseded parameters allow
  · refine Alias.value?_of_head_none fun name hname => ?_
    obtain rfl := Option.some.inj (hfirst.symm.trans hname)
    exact get?_applyAliases_of_superseded hdropped m
  · rw [← h]
    refine a.value?_congr fun name hname => ?_
    obtain rfl := Option.some.inj (hfirst.symm.trans hname)
    -- an alias does not begin with a name, so nothing has been written here
    have hname : first ∉ (admitted parameters allow).map Parameter.name :=
      fun hmem => haliases p hp a ha first hfirst ((List.filter_sublist.map _).subset hmem)
    exact get?_applyAliases_of_other haliases hnames hname hdropped m

/-- **Aliases are applied once and for all.** -/
theorem applyAliases_applyAliases (m : Mapping) :
    applyAliases parameters allow (applyAliases parameters allow m).1
      = ((applyAliases parameters allow m).1, []) := by
  refine applyAliases_eq_self (fun p hp => p.canonicalize_eq_self fun hown a ha => ?_)
    fun name hname => get?_applyAliases_of_superseded hname m
  rw [nonNull?_applyAliases haliases hnames hp] at hown
  have hnone : a.value? m = none := (Parameter.found?_eq_none_iff.mp hown).2 a ha
  exact value?_applyAliases_of_none haliases hnames (List.mem_filter.mp hp).1 ha hnone

end Apart

/-- **Aliases make a section canonical**, if names are distinct and no alias begins with one. Every
parameter that the section may set has its own value, or else that of its first alias with one in the
original section, or else what it had before; its plain aliases are gone; all else is as it was. And
applying aliases once more changes nothing and uses no deprecated one. -/
theorem applyAliases_canonical (parameters : List Parameter) (allow : List String)
    (hnames : (parameters.map Parameter.name).Nodup)
    (haliases : ∀ p ∈ parameters, ∀ a ∈ p.aliases, ∀ first ∈ a.path.head?,
      first ∉ parameters.map Parameter.name) (m : Mapping) :
    let canonical := (applyAliases parameters allow m).1
    (∀ p ∈ parameters, Mapping.admits allow p.name = true →
      Assoc.get? canonical p.name = (p.found? m).or (Assoc.get? m p.name) ∧
      ∀ a ∈ p.aliases, a.isFlat = true → Assoc.get? canonical a.name = none) ∧
    (∀ key, (∀ p ∈ parameters, Mapping.admits allow p.name = true →
        p.name ≠ key ∧ ∀ a ∈ p.aliases, a.isFlat = true → a.name ≠ key) →
      Assoc.get? canonical key = Assoc.get? m key) ∧
    applyAliases parameters allow canonical = (canonical, []) := by
  intro canonical
  refine ⟨fun p hp hadmits => ?parameter, fun key hkey => ?other,
    applyAliases_applyAliases haliases hnames m⟩
  case parameter =>
    have hadmitted : p ∈ admitted parameters allow := List.mem_filter.mpr ⟨hp, hadmits⟩
    refine ⟨get?_applyAliases_of_admitted haliases hnames hadmitted m, fun a ha hflat => ?_⟩
    have hdropped : a.name ∈ superseded parameters allow :=
      (mem_superseded_iff haliases).mpr ⟨p, hadmitted, a, ha, hflat, rfl⟩
    exact get?_applyAliases_of_superseded hdropped m
  case other =>
    have hname : key ∉ (admitted parameters allow).map Parameter.name := by
      intro hmem
      obtain ⟨p, hp, hname⟩ := List.mem_map.mp hmem
      obtain ⟨hp, hadmits⟩ := List.mem_filter.mp hp
      exact (hkey p hp hadmits).1 hname
    have hkept : key ∉ superseded parameters allow := by
      intro hmem
      obtain ⟨p, hp, a, ha, hflat, hname⟩ := (mem_superseded_iff haliases).mp hmem
      obtain ⟨hp, hadmits⟩ := List.mem_filter.mp hp
      exact (hkey p hp hadmits).2 a ha hflat hname
    exact get?_applyAliases_of_other haliases hnames hname hkept m

/-- The plain alias of `host` begins the path alias of `user`, which is used because null counts as
no value, and both are aliases of `host`. The alias of `token` stays, since the section may not set
`token`. -/
theorem applyAliases_canonical_shared :
    let user : Parameter := { Parameter.plain "user" with
      aliases := [⟨"login", true⟩, ⟨"account/login", true⟩] }
    let host : Parameter := { Parameter.plain "host" with
      aliases := [⟨"login", false⟩, ⟨"account", false⟩] }
    let token : Parameter := { Parameter.plain "token" with aliases := [⟨"secret", true⟩] }
    let account : Value := .mapping [("login", .string "root")]
    let m : Mapping := [("account", account), ("login", .null), ("secret", .string "x"),
      ("user", .null)]
    let parameters := [user, host, token]
    let canonical : Mapping := [("host", account), ("secret", .string "x"),
      ("user", .string "root")]
    (parameters.map Parameter.name).Nodup ∧
    (∀ p ∈ parameters, ∀ a ∈ p.aliases, ∀ first ∈ a.path.head?,
      first ∉ parameters.map Parameter.name) ∧
    applyAliases parameters ["user", "host"] m = (canonical, [⟨"account/login", "user"⟩]) ∧
    user.found? m = some (.string "root") ∧
    Assoc.get? canonical "user" = some (.string "root") ∧
    Assoc.get? canonical "account" = none ∧ Assoc.get? canonical "secret" = some (.string "x") ∧
    applyAliases parameters ["user", "host"] canonical = (canonical, []) := by
  intro user host token account m parameters canonical
  have hnames : (parameters.map Parameter.name).Nodup := by decide
  have haliases : ∀ p ∈ parameters, ∀ a ∈ p.aliases, ∀ first ∈ a.path.head?,
      first ∉ parameters.map Parameter.name := by decide +kernel
  have happlied : applyAliases parameters ["user", "host"] m
      = (canonical, [⟨"account/login", "user"⟩]) := by
    simp only [parameters, user, host, token, m, account, canonical]
    rfl
  have hfound : user.found? m = some (.string "root") := rfl
  have hsecret : ∀ p ∈ parameters, Mapping.admits ["user", "host"] p.name = true →
      p.name ≠ "secret" ∧ ∀ a ∈ p.aliases, a.isFlat = true → a.name ≠ "secret" := by decide +kernel
  obtain ⟨hset, hkept, htwice⟩ :=
    applyAliases_canonical parameters ["user", "host"] hnames haliases m
  rw [happlied] at hset hkept htwice
  obtain ⟨huser, -⟩ := hset user List.mem_cons_self rfl
  obtain ⟨-, hplain⟩ := hset host (List.mem_cons_of_mem _ List.mem_cons_self) rfl
  rw [hfound] at huser
  have haccount := hplain ⟨"account", false⟩ (List.mem_cons_of_mem _ List.mem_cons_self) rfl
  exact ⟨hnames, haliases, happlied, hfound, huser, haccount, hkept "secret" hsecret, htwice⟩

end PipelineConfig
