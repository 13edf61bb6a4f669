import Mathlib.Data.List.Nodup
import PipelineConfig.Metadata.Basic
import PipelineConfig.Proofs.Assoc

/-!
# What the defaults hold under a key

The defaults of a step are put together in a walk over its parameters. The default of a parameter
without conditions goes under the name of the parameter. That of a conditional parameter goes into
mappings, one for each value that the parameter depends on, and there under its name; so these
mappings gather what several parameters contribute.

As long as no such value is the name of a parameter, the two kinds of key can be told apart, and
what stands under each can be said without the walk:

* under the name of a parameter, its own default, if it has no conditions
  (`PipelineConfig.Metadata.get?_defaults_of_name`);
* under any other key, the mapping of the defaults that go there
  (`PipelineConfig.Metadata.get?_defaults_of_not_name`); if a parameter depends on the key and has a
  default, that is among them (`PipelineConfig.Metadata.get?_defaults_of_dependency`).

So the order of the parameters does not matter if their names are distinct
(`PipelineConfig.Metadata.get?_defaults_perm`).
-/

namespace PipelineConfig

namespace Metadata

/-! ### Defaults in mappings -/

/-- The mapping of some defaults, if there are any. -/
def gathered (pairs : Mapping) : Option Value :=
  if pairs.isEmpty then none else some (.mapping (Assoc.ofList pairs))

/-- The defaults that a parameter contributes to the mapping under a key: its own one for each time
that it depends on the key. -/
def nestedAt (key : String) (p : Parameter) : Mapping :=
  match p.default? with
  | none => []
  | some default =>
    if p.conditions.isEmpty then []
    else (p.dependencies.filter (fun d => d.value = key)).map (fun _ => (p.name, default))

theorem mem_nestedAt {key name : String} {v : Value} {p : Parameter}
    (h : (name, v) ∈ nestedAt key p) : p.name = name ∧ p.default? = some v := by
  rw [nestedAt] at h
  split at h
  · cases h
  · rename_i default hdefault
    split at h
    · cases h
    · obtain ⟨d, -, he⟩ := List.mem_map.mp h
      rw [Prod.mk.injEq] at he
      exact ⟨he.1, by rw [hdefault, he.2]⟩

theorem mem_nestedAt_of_dependency {p : Parameter} {d : Dependency} (hd : d ∈ p.dependencies)
    {v : Value} (hv : p.default? = some v) : (p.name, v) ∈ nestedAt d.value p := by
  have hconditions : ¬ p.conditions.isEmpty = true := by
    rw [List.isEmpty_iff]
    intro hnil
    rw [Parameter.dependencies, hnil] at hd
    cases hd
  rw [nestedAt, hv]
  simp only [if_neg hconditions]
  exact List.mem_map.mpr ⟨d, List.mem_filter.mpr ⟨hd, decide_eq_true rfl⟩, rfl⟩

variable {m : Mapping} {key : String}

theorem get?_nestDefault_of_ne {d : Dependency} (hkey : d.value ≠ key) (name : String)
    (v : Value) : Assoc.get? (nestDefault name v m d) key = Assoc.get? m key := by
  rw [nestDefault]
  split
  · rw [Assoc.get?_insert, if_neg hkey]
  · rw [Assoc.get?_insert, if_neg hkey]
  · rfl

/-- One more default goes into the mapping that is there, or into a new one. -/
theorem get?_nestDefault_of_gathered {pairs : Mapping} {d : Dependency}
    (h : Assoc.get? m d.value = gathered pairs) (name : String) (v : Value) :
    Assoc.get? (nestDefault name v m d) d.value = gathered (pairs ++ [(name, v)]) := by
  have hmore : gathered (pairs ++ [(name, v)])
      = some (.mapping (Assoc.insert (Assoc.ofList pairs) name v)) := by
    rw [gathered, if_neg (by simp), Assoc.ofList, Assoc.ofList, List.foldl_append]
    rfl
  rw [hmore, nestDefault, h, gathered]
  rcases pairs with _ | ⟨pair, pairs⟩
  · exact (Assoc.get?_insert m d.value d.value _).trans (if_pos rfl)
  · exact (Assoc.get?_insert m d.value d.value _).trans (if_pos rfl)

theorem get?_foldl_nestDefault_of_ne {ds : List Dependency} (hkey : ∀ d ∈ ds, d.value ≠ key)
    (name : String) (v : Value) (m : Mapping) :
    Assoc.get? (ds.foldl (nestDefault name v) m) key = Assoc.get? m key := by
  induction ds generalizing m with
  | nil => rfl
  | cons d ds ih =>
    rw [List.foldl_cons, ih fun d' hd' => hkey d' (List.mem_cons_of_mem d hd'),
      get?_nestDefault_of_ne (hkey d List.mem_cons_self)]

theorem get?_foldl_nestDefault {pairs : Mapping} (h : Assoc.get? m key = gathered pairs)
    (ds : List Dependency) (name : String) (v : Value) :
    Assoc.get? (ds.foldl (nestDefault name v) m) key
      = gathered (pairs ++ (ds.filter (fun d => d.value = key)).map (fun _ => (name, v))) := by
  induction ds generalizing m pairs with
  | nil => simpa using h
  | cons d ds ih =>
    rw [List.foldl_cons, List.filter_cons]
    by_cases hkey : d.value = key
    · subst hkey
      rw [ih (get?_nestDefault_of_gathered h name v)]
      simp
    · rw [ih ((get?_nestDefault_of_ne hkey name v).trans h)]
      simp [hkey]

/-! ### One parameter -/

/-- Under a key that is not the name of a parameter, it contributes to the mapping there. -/
theorem get?_addDefault_of_ne {p : Parameter} (hkey : key ≠ p.name) {pairs : Mapping}
    (h : Assoc.get? m key = gathered pairs) :
    Assoc.get? (addDefault m p) key = gathered (pairs ++ nestedAt key p) := by
  rw [addDefault, nestedAt]
  cases p.default? with
  | none => simpa using h
  | some default =>
    by_cases hconditions : p.conditions.isEmpty = true
    · simpa [hconditions, Ne.symm hkey] using h
    · simp only [if_neg hconditions]
      exact get?_foldl_nestDefault h p.dependencies p.name default

/-- Under its own name a parameter puts its default if it has no conditions. -/
theorem get?_addDefault_of_name {p : Parameter} (hvalues : ∀ d ∈ p.dependencies, d.value ≠ p.name)
    (h : Assoc.get? m p.name = none) :
    Assoc.get? (addDefault m p) p.name = if p.conditions.isEmpty then p.default? else none := by
  rw [addDefault]
  cases p.default? with
  | none => simpa using h
  | some default =>
    by_cases hconditions : p.conditions.isEmpty = true
    · simp [hconditions]
    · simp only [if_neg hconditions]
      exact (get?_foldl_nestDefault_of_ne hvalues p.name default m).trans h

/-- The name of another parameter is left alone. -/
theorem get?_addDefault_of_other {p : Parameter} (hkey : key ≠ p.name)
    (hvalues : ∀ d ∈ p.dependencies, d.value ≠ key) :
    Assoc.get? (addDefault m p) key = Assoc.get? m key := by
  rw [addDefault]
  cases p.default? with
  | none => rfl
  | some default =>
    by_cases hconditions : p.conditions.isEmpty = true
    · simp [hconditions, Ne.symm hkey]
    · simp only [if_neg hconditions]
      exact get?_foldl_nestDefault_of_ne hvalues p.name default m

/-! ### All parameters -/

theorem get?_foldl_addDefault_of_other {parameters : List Parameter}
    (hkey : ∀ p ∈ parameters, key ≠ p.name ∧ ∀ d ∈ p.dependencies, d.value ≠ key) (m : Mapping) :
    Assoc.get? (parameters.foldl addDefault m) key = Assoc.get? m key := by
  induction parameters generalizing m with
  | nil => rfl
  | cons p rest ih =>
    obtain ⟨hname, hvalues⟩ := hkey p List.mem_cons_self
    rw [List.foldl_cons, ih fun q hq => hkey q (List.mem_cons_of_mem p hq),
      get?_addDefault_of_other hname hvalues]

/-- **Under the name of a parameter** there is its default, if it has no conditions. -/
theorem get?_defaults_of_name {m : Metadata} (hnames : (m.parameters.map Parameter.name).Nodup)
    (hvalues : ∀ p ∈ m.parameters, ∀ d ∈ p.dependencies,
      d.value ∉ m.parameters.map Parameter.name) {p : Parameter} (hp : p ∈ m.parameters) :
    Assoc.get? m.defaults p.name = if p.conditions.isEmpty then p.default? else none := by
  have hfree : ∀ q ∈ m.parameters, ∀ d ∈ q.dependencies, d.value ≠ p.name :=
    fun q hq d hd he => hvalues q hq d hd (he ▸ List.mem_map_of_mem hp)
  obtain ⟨before, after, hsplit⟩ := List.append_of_mem hp
  -- what comes before and behind the parameter has other names
  rw [hsplit, List.map_append, List.map_cons, List.nodup_append] at hnames
  obtain ⟨-, hafter, hbefore⟩ := hnames
  have hothers : ∀ q, q ∈ before ∨ q ∈ after → p.name ≠ q.name := by
    rintro q (hq | hq) hname
    · exact hbefore q.name (List.mem_map_of_mem hq) p.name List.mem_cons_self hname.symm
    · exact (List.nodup_cons.mp hafter).1 (hname ▸ List.mem_map_of_mem hq)
  have hmem : ∀ q, q ∈ before ∨ q ∈ after → q ∈ m.parameters := by
    rintro q (hq | hq)
    · exact hsplit ▸ List.mem_append_left _ hq
    · exact hsplit ▸ List.mem_append_right _ (List.mem_cons_of_mem p hq)
  have hnone : Assoc.get? (before.foldl addDefault []) p.name = none :=
    get?_foldl_addDefault_of_other (fun q hq => ⟨hothers q (Or.inl hq),
      hfree q (hmem q (Or.inl hq))⟩) []
  rw [defaults, hsplit, List.foldl_append, List.foldl_cons,
    get?_foldl_addDefault_of_other
      fun q hq => ⟨hothers q (Or.inr hq), hfree q (hmem q (Or.inr hq))⟩]
  exact get?_addDefault_of_name (hfree p hp) hnone

theorem get?_foldl_addDefault_of_not_name {parameters : List Parameter}
    (hkey : key ∉ parameters.map Parameter.name) {pairs : Mapping}
    (h : Assoc.get? m key = gathered pairs) :
    Assoc.get? (parameters.foldl addDefault m) key
      = gathered (pairs ++ parameters.flatMap (nestedAt key)) := by
  induction parameters generalizing m pairs with
  | nil => simpa using h
  | cons p rest ih =>
    rw [List.map_cons, List.mem_cons, not_or] at hkey
    rw [List.foldl_cons, ih hkey.2 (get?_addDefault_of_ne hkey.1 h), List.flatMap_cons,
      List.append_assoc]

/-- **Under any other key** there is the mapping of the defaults that go there, if there are any. -/
theorem get?_defaults_of_not_name {m : Metadata} (hkey : key ∉ m.parameters.map Parameter.name) :
    Assoc.get? m.defaults key = gathered (m.parameters.flatMap (nestedAt key)) := by
  have hnone : Assoc.get? ([] : Mapping) key = gathered [] := rfl
  exact get?_foldl_addDefault_of_not_name hkey hnone

/-- The defaults that go into mappings have the names of parameters, so there is one for each name. -/
theorem nestedAt_unique {m : Metadata} (hnames : (m.parameters.map Parameter.name).Nodup)
    {key name : String} {v w : Value} (hv : (name, v) ∈ m.parameters.flatMap (nestedAt key))
    (hw : (name, w) ∈ m.parameters.flatMap (nestedAt key)) : v = w := by
  obtain ⟨p, hp, hpv⟩ := List.mem_flatMap.mp hv
  obtain ⟨q, hq, hqw⟩ := List.mem_flatMap.mp hw
  obtain ⟨hpname, hpdefault⟩ := mem_nestedAt hpv
  obtain ⟨hqname, hqdefault⟩ := mem_nestedAt hqw
  obtain rfl := List.inj_on_of_nodup_map hnames hp hq (hpname.trans hqname.symm)
  exact Option.some.inj (hpdefault.symm.trans hqdefault)

/-- **Under a value that a parameter depends on** there is a mapping, and there, under the name of
the parameter, its default. -/
theorem get?_defaults_of_dependency {m : Metadata}
    (hnames : (m.parameters.map Parameter.name).Nodup)
    (hvalues : ∀ p ∈ m.parameters, ∀ d ∈ p.dependencies,
      d.value ∉ m.parameters.map Parameter.name) {p : Parameter} (hp : p ∈ m.parameters)
    {d : Dependency} (hd : d ∈ p.dependencies) :
    ((Assoc.get? m.defaults d.value).bind Value.asMapping?).bind
      (fun inner => Assoc.get? inner p.name) = p.default? := by
  have hmapping : ((Assoc.get? m.defaults d.value).bind Value.asMapping?).bind
        (fun inner => Assoc.get? inner p.name)
      = Assoc.last? (m.parameters.flatMap (nestedAt d.value)) p.name := by
    rw [get?_defaults_of_not_name (hvalues p hp d hd), gathered]
    rcases m.parameters.flatMap (nestedAt d.value) with _ | ⟨pair, pairs⟩
    · rfl
    · exact Assoc.get?_ofList (pair :: pairs) p.name
  rw [hmapping]
  rcases hdefault : p.default? with _ | v
  · -- only the parameter itself could contribute under its name
    by_contra hne
    obtain ⟨v, hv⟩ := Option.ne_none_iff_exists'.mp hne
    obtain ⟨q, hq, hqv⟩ := List.mem_flatMap.mp (Assoc.mem_of_last? hv)
    obtain ⟨hname, hqdefault⟩ := mem_nestedAt hqv
    obtain rfl := List.inj_on_of_nodup_map hnames hq hp hname
    rw [hdefault] at hqdefault
    cases hqdefault
  · have hmem : (p.name, v) ∈ m.parameters.flatMap (nestedAt d.value) :=
      List.mem_flatMap.mpr ⟨p, hp, mem_nestedAt_of_dependency hd hdefault⟩
    obtain ⟨w, hw⟩ := Assoc.exists_last?_of_mem hmem
    rw [hw, nestedAt_unique hnames (Assoc.mem_of_last? hw) hmem]

/-- **The order of parameters does not matter to their defaults**, if they have distinct names, and
none of these is a value that a parameter depends on. -/
theorem get?_defaults_perm {m m' : Metadata} (hperm : m.parameters.Perm m'.parameters)
    (hnames : (m.parameters.map Parameter.name).Nodup)
    (hvalues : ∀ p ∈ m.parameters, ∀ d ∈ p.dependencies,
      d.value ∉ m.parameters.map Parameter.name) (key : String) :
    Assoc.get? m.defaults key = Assoc.get? m'.defaults key := by
  have hmap := hperm.map Parameter.name
  by_cases hkey : key ∈ m.parameters.map Parameter.name
  · obtain ⟨p, hp, rfl⟩ := List.mem_map.mp hkey
    have hvalues' : ∀ p ∈ m'.parameters, ∀ d ∈ p.dependencies,
        d.value ∉ m'.parameters.map Parameter.name :=
      fun q hq d hd hmem => hvalues q (hperm.mem_iff.mpr hq) d hd (hmap.mem_iff.mpr hmem)
    rw [get?_defaults_of_name hnames hvalues hp,
      get?_defaults_of_name (hmap.nodup_iff.mp hnames) hvalues' (hperm.mem_iff.mp hp)]
  · have hpairs := hperm.flatMap_right (nestedAt key)
    rw [get?_defaults_of_not_name hkey,
      get?_defaults_of_not_name fun hmem => hkey (hmap.mem_iff.mpr hmem), gathered, gathered,
      Assoc.ofList_perm hpairs fun _ _ _ => nestedAt_unique hnames, hpairs.isEmpty_eq]

end Metadata

end PipelineConfig
