import Mathlib.Data.List.Nodup
import PipelineConfig.Proofs.Isolation

/-!
# Steps that do not get in each other's way

Aliases are applied, and conditional parameters are filled in, by a walk over the parameters that
changes a mapping in place. Each step of such a walk sees what the steps before it have done, so in
general the order of the steps matters.

It does not if the steps are *independent* (`PipelineConfig.Independent`): each has a name of its
own, writes under that name only, and what it writes depends on what stands under its own name and
under the names that no step has. Then a walk can be read without walking: under the name of a step
there is what this step alone makes of the mapping (`PipelineConfig.Independent.get?_foldl_of_mem`),
and everything else is as it was (`PipelineConfig.Independent.get?_foldl_of_not_mem`). In particular
the steps may be taken in any order (`PipelineConfig.Independent.get?_foldl_perm`), and a second walk
changes nothing if a second step does not (`PipelineConfig.Independent.get?_foldl_foldl`).

Both walks over parameters are of this kind once names are distinct and no parameter reads what
another one writes: the first segments of aliases are not names of parameters
(`PipelineConfig.independent_canonicalize`), and no conditional parameter depends on another one or
on a value that is the name of one (`PipelineConfig.independent_fillConditional`).
-/

namespace PipelineConfig

/-- **Independent steps**: each writes under its own name only, and for that it reads nothing that
another step writes. -/
structure Independent {β : Type} (step : Mapping → β → Mapping) (name : β → String)
    (bs : List β) : Prop where
  distinct : (bs.map name).Nodup
  /-- A step leaves everything alone but its own name. -/
  frame : ∀ b ∈ bs, ∀ m key, key ≠ name b → Assoc.get? (step m b) key = Assoc.get? m key
  /-- What a step makes of its own name is known from this name and those that no step has. -/
  own : ∀ b ∈ bs, ∀ x y, Mapping.AgreeOn (fun key => key = name b ∨ key ∉ bs.map name) x y →
    Assoc.get? (step x b) (name b) = Assoc.get? (step y b) (name b)

namespace Independent

variable {β : Type} {step : Mapping → β → Mapping} {name : β → String} {bs cs : List β} {b : β}

/-- Some of the steps are independent if all are. -/
theorem sublist (h : Independent step name cs) (hsub : bs.Sublist cs) :
    Independent step name bs where
  distinct := h.distinct.sublist (hsub.map name)
  frame c hc := h.frame c (hsub.subset hc)
  own c hc x y hagree := by
    refine h.own c (hsub.subset hc) x y fun key hkey => hagree key ?_
    exact hkey.imp_right fun hnone hmem => hnone ((hsub.map name).subset hmem)

theorem perm (h : Independent step name bs) (hperm : bs.Perm cs) : Independent step name cs where
  distinct := (hperm.map name).nodup_iff.mp h.distinct
  frame c hc := h.frame c (hperm.mem_iff.mpr hc)
  own c hc x y hagree := by
    refine h.own c (hperm.mem_iff.mpr hc) x y fun key hkey => hagree key ?_
    exact hkey.imp_right fun hnone hmem => hnone ((hperm.map name).mem_iff.mpr hmem)

/-- **A name that no step has** keeps what stands there. -/
theorem get?_foldl_of_not_mem (h : Independent step name bs) {key : String}
    (hkey : key ∉ bs.map name) (m : Mapping) :
    Assoc.get? (bs.foldl step m) key = Assoc.get? m key := by
  induction bs generalizing m with
  | nil => rfl
  | cons b bs ih =>
    rw [List.map_cons, List.mem_cons, not_or] at hkey
    have hrest := h.sublist (List.sublist_cons_self b bs)
    rw [List.foldl_cons, ih hrest hkey.2, h.frame b List.mem_cons_self m key hkey.1]

/-- **Under the name of a step** there is what this step alone makes of the mapping. -/
theorem get?_foldl_of_mem (h : Independent step name bs) (hb : b ∈ bs) (m : Mapping) :
    Assoc.get? (bs.foldl step m) (name b) = Assoc.get? (step m b) (name b) := by
  induction bs generalizing m with
  | nil => cases hb
  | cons c bs ih =>
    have hrest := h.sublist (List.sublist_cons_self c bs)
    have hdistinct := h.distinct
    rw [List.map_cons, List.nodup_cons] at hdistinct
    rw [List.foldl_cons]
    rcases List.mem_cons.mp hb with rfl | hlater
    · -- no later step has this name
      exact hrest.get?_foldl_of_not_mem hdistinct.1 _
    · rw [ih hrest hlater]
      -- the first step has written under its own name, and that is not read
      refine h.own b hb _ _ fun key hkey => h.frame c List.mem_cons_self m key ?_
      rintro rfl
      rcases hkey with hname | hnone
      · exact hdistinct.1 (hname ▸ List.mem_map_of_mem hlater)
      · exact hnone List.mem_cons_self

/-- **Walking once more changes nothing** if no step taken twice in a row does anything the second
time. -/
theorem get?_foldl_foldl (h : Independent step name bs)
    (hagain : ∀ b ∈ bs, ∀ m,
      Assoc.get? (step (step m b) b) (name b) = Assoc.get? (step m b) (name b))
    (m : Mapping) (key : String) :
    Assoc.get? (bs.foldl step (bs.foldl step m)) key = Assoc.get? (bs.foldl step m) key := by
  by_cases hkey : key ∈ bs.map name
  · obtain ⟨b, hb, rfl⟩ := List.mem_map.mp hkey
    -- of the first walk a step sees only what it has written itself
    have hagree : Mapping.AgreeOn (fun key => key = name b ∨ key ∉ bs.map name)
        (bs.foldl step m) (step m b) := by
      rintro key (rfl | hnone)
      · exact h.get?_foldl_of_mem hb m
      · have hne : key ≠ name b := fun he => hnone (he ▸ List.mem_map_of_mem hb)
        rw [h.get?_foldl_of_not_mem hnone, h.frame b hb m key hne]
    rw [h.get?_foldl_of_mem hb, h.own b hb _ _ hagree, hagain b hb, h.get?_foldl_of_mem hb]
  · rw [h.get?_foldl_of_not_mem hkey]

/-- **The order of the steps does not matter.** -/
theorem get?_foldl_perm (h : Independent step name bs) (hperm : bs.Perm cs) (m : Mapping)
    (key : String) :
    Assoc.get? (bs.foldl step m) key = Assoc.get? (cs.foldl step m) key := by
  by_cases hkey : key ∈ bs.map name
  · obtain ⟨b, hb, rfl⟩ := List.mem_map.mp hkey
    rw [h.get?_foldl_of_mem hb, (h.perm hperm).get?_foldl_of_mem (hperm.mem_iff.mp hb)]
  · have hkey' : key ∉ cs.map name := fun hmem => hkey ((hperm.map name).mem_iff.mpr hmem)
    rw [h.get?_foldl_of_not_mem hkey, (h.perm hperm).get?_foldl_of_not_mem hkey']

end Independent

/-! ### Aliases -/

/-- Parameters are brought under their own names by a walk. -/
theorem canonicalizeAll_eq_foldl (parameters : List Parameter) (m : Mapping) :
    (canonicalizeAll parameters m).1 = parameters.foldl (fun m p => (p.canonicalize m).1) m := by
  induction parameters generalizing m with
  | nil => rfl
  | cons p rest ih => exact ih _

/-- The parameters that a section may set. -/
def admitted (parameters : List Parameter) (allow : List String) : List Parameter :=
  parameters.filter (fun p => Mapping.admits allow p.name)

/-- The aliases that are dropped from a section: the plain ones of the parameters that it may set,
if they are not parameters themselves. -/
def superseded (parameters : List Parameter) (allow : List String) : List String :=
  (flatAliases (admitted parameters allow)).filter (fun name =>
    !parameters.any (fun p => p.name = name))

theorem applyAliases_eq (parameters : List Parameter) (allow : List String) (m : Mapping) :
    (applyAliases parameters allow m).1 = (superseded parameters allow).foldl Assoc.erase
      ((admitted parameters allow).foldl (fun m p => (p.canonicalize m).1) m) := by
  rw [← canonicalizeAll_eq_foldl]
  rfl

/-- **Aliases are applied independently** if no alias begins with the name of a parameter. -/
theorem independent_canonicalize {parameters : List Parameter}
    (hnames : (parameters.map Parameter.name).Nodup)
    (haliases : ∀ p ∈ parameters, ∀ a ∈ p.aliases, ∀ first, a.path.head? = some first →
      first ∉ parameters.map Parameter.name) :
    Independent (fun m p => (p.canonicalize m).1) Parameter.name parameters where
  distinct := hnames
  frame p _ m key hkey := (p.filledIn_canonicalize m).get?_of_ne hkey
  own p hp x y hagree := by
    have hwithin : p.Within (fun key => key = p.name ∨ key ∉ parameters.map Parameter.name) :=
      ⟨Or.inl rfl, fun a ha first hfirst => Or.inr (haliases p hp a ha first hfirst)⟩
    exact (hwithin.canonicalize hagree).1 p.name (Or.inl rfl)

/-- So are those of the parameters that a section may set. -/
theorem independent_canonicalize_admitted {parameters : List Parameter}
    (hnames : (parameters.map Parameter.name).Nodup)
    (haliases : ∀ p ∈ parameters, ∀ a ∈ p.aliases, ∀ first, a.path.head? = some first →
      first ∉ parameters.map Parameter.name) (allow : List String) :
    Independent (fun m p => (p.canonicalize m).1) Parameter.name (admitted parameters allow) :=
  (independent_canonicalize hnames haliases).sublist List.filter_sublist

/-! ### Conditional parameters -/

namespace Parameter

/-- Whether a parameter depends on a value, so that it may be filled in. -/
def isConditional (p : Parameter) : Bool :=
  p.dependency?.isSome

variable {p : Parameter} {d : Dependency}

/-- **What the section of a value has for a parameter.** Null counts as nothing, and so does a
section that is no mapping. -/
def offered? (p : Parameter) (value : String) (m : Mapping) : Option Value :=
  ((Assoc.get? m value).bind Value.asMapping?).bind (fun inner => inner.nonNull? p.name)

theorem offered?_congr {value : String} {x y : Mapping}
    (h : Assoc.get? x value = Assoc.get? y value) : p.offered? value x = p.offered? value y := by
  rw [offered?, offered?, h]

/-- What stands under the name of a conditional parameter once it has been filled in. -/
theorem get?_fillConditional_self (hd : p.dependency? = some d) (m : Mapping) :
    Assoc.get? (fillConditional m p) p.name =
      if (m.nonNull? p.name).isSome then Assoc.get? m p.name
      else if m.string? d.name = some d.value then
        ((p.offered? d.value m).or p.default?).or (Assoc.get? m p.name)
      else Assoc.get? m p.name := by
  have htaken : p.conditionalValue? d m = (p.offered? d.value m).or p.default? := rfl
  rw [fillConditional, hd, ← htaken]
  by_cases hset : (m.nonNull? p.name).isSome = true
  · simp only [if_pos hset]
  · by_cases hmet : m.string? d.name = some d.value
    · simp only [if_neg hset, if_pos hmet]
      cases p.conditionalValue? d m <;> simp
    · simp only [if_neg hset, if_neg hmet]

/-- What a parameter is filled in with is known from its own name, from that of what it depends on,
and from the name that is the value it depends on. -/
theorem get?_fillConditional_congr {x y : Mapping} {matters : String → Prop}
    (h : Mapping.AgreeOn matters x y) (hname : matters p.name)
    (hdependency : ∀ d, p.dependency? = some d → matters d.name ∧ matters d.value) :
    Assoc.get? (fillConditional x p) p.name = Assoc.get? (fillConditional y p) p.name := by
  rcases hd : p.dependency? with _ | d
  · rw [fillConditional, fillConditional, hd]
    exact h p.name hname
  · obtain ⟨hon, hvalue⟩ := hdependency d hd
    have hstring : x.string? d.name = y.string? d.name := by
      rw [Mapping.string?, Mapping.string?, h d.name hon]
    rw [get?_fillConditional_self hd, get?_fillConditional_self hd, h.nonNull? hname,
      h p.name hname, hstring, offered?_congr (h d.value hvalue)]

end Parameter

/-- Only conditional parameters are filled in. -/
theorem fillConditionals_eq_foldl (parameters : List Parameter) (m : Mapping) :
    fillConditionals parameters m
      = (parameters.filter Parameter.isConditional).foldl Parameter.fillConditional m := by
  rw [List.foldl_filter, fillConditionals]
  congr 1
  funext m p
  split
  · rfl
  · rename_i h
    have hnone : p.dependency? = none := by
      rw [Parameter.isConditional, Option.not_isSome_iff_eq_none] at h
      exact h
    rw [Parameter.fillConditional, hnone]

/-- **Conditional parameters are filled in independently** if none depends on another one, or on a
value that is the name of one. -/
theorem independent_fillConditional {parameters : List Parameter}
    (hnames : (parameters.map Parameter.name).Nodup)
    (hdependency : ∀ p ∈ parameters, ∀ q ∈ parameters, p.isConditional = true →
      ∀ d, q.dependency? = some d → d.value ≠ p.name ∧ (d.name = p.name → q.name = p.name)) :
    Independent Parameter.fillConditional Parameter.name
      (parameters.filter Parameter.isConditional) where
  distinct := hnames.sublist (List.filter_sublist.map Parameter.name)
  frame p _ m key hkey := (p.filledIn_fillConditional m).get?_of_ne hkey
  own q hq x y hagree := by
    obtain ⟨hq, -⟩ := List.mem_filter.mp hq
    refine q.get?_fillConditional_congr hagree (Or.inl rfl) fun d hd => ⟨?_, Or.inr ?_⟩
    · by_cases hself : d.name = q.name
      · exact Or.inl hself
      · right
        intro hmem
        obtain ⟨p, hp, hname⟩ := List.mem_map.mp hmem
        obtain ⟨hp, hconditional⟩ := List.mem_filter.mp hp
        have hsame := (hdependency p hp q hq hconditional d hd).2 hname.symm
        exact hself (hname.symm.trans hsame.symm)
    · intro hmem
      obtain ⟨p, hp, hname⟩ := List.mem_map.mp hmem
      obtain ⟨hp, hconditional⟩ := List.mem_filter.mp hp
      exact (hdependency p hp q hq hconditional d hd).1 hname.symm

end PipelineConfig
