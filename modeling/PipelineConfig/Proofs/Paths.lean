import Mathlib.Data.List.Infix
import PipelineConfig.Proofs.Merge
import PipelineConfig.Resolution.Aliases

/-!
# A merge, path by path

Under a single key a merge is simple, since nothing about any other key matters
(`PipelineConfig.Mapping.get?_merge`). This file says what a merge holds at the end of a whole *path*
of keys, through mappings inside mappings (`PipelineConfig.Mapping.walk?`).

What the upper mapping holds there is laid over what the lower one holds there, and if neither holds
anything, neither does the merge. There is one more case only, and it is why a path has to be looked
at as a whole: the upper mapping may hold a text, a number, null or anything else that is no mapping
*on the way*. Then it cuts off the path (`PipelineConfig.Mapping.CutsOff`), and what the lower mapping
holds further along is gone, although the upper one has nothing to put in its place.

So the merge is known from both sides and from the ways that the upper one cuts off
(`PipelineConfig.Mapping.walk?_merge`), and `PipelineConfig.Mapping.merge_pathwise` reads this off
case by case. The converse of a cut needs no case of its own: where the *lower* mapping holds
something else on the way, it holds nothing at the end, and the upper one is taken as it is.
-/

namespace PipelineConfig

namespace Mapping

variable {m n inner : Mapping} {name : String} {path : List String} {v : Value}

/-! ### Walking -/

@[simp] theorem walk?_nil (m : Mapping) : m.walk? [] = none := rfl

/-- A path goes on inside a mapping. -/
theorem walk?_cons_of_mapping (h : Assoc.get? m name = some (.mapping inner)) (hpath : path ≠ []) :
    m.walk? (name :: path) = inner.walk? path := by
  rcases path with _ | ⟨next, rest⟩
  · exact absurd rfl hpath
  · simp only [walk?, h]

/-- A path does not go on anywhere else. -/
theorem walk?_cons_of_not_mapping (h : ∀ inner, Assoc.get? m name ≠ some (.mapping inner))
    (hpath : path ≠ []) : m.walk? (name :: path) = none := by
  rcases path with _ | ⟨next, rest⟩
  · exact absurd rfl hpath
  · simp only [walk?]

/-- **What a path leads to** stands under its first key, or further along in the mapping there. -/
theorem walk?_cons_eq_some_iff : m.walk? (name :: path) = some v ↔
    (path = [] ∧ Assoc.get? m name = some v) ∨
      ∃ inner : Mapping, Assoc.get? m name = some (.mapping inner) ∧ inner.walk? path = some v := by
  by_cases hpath : path = []
  · subst hpath
    simp [walk?]
  · by_cases hinner : ∃ inner, Assoc.get? m name = some (.mapping inner)
    · obtain ⟨inner, hinner⟩ := hinner
      simp [walk?_cons_of_mapping hinner hpath, hinner, hpath]
    · rw [walk?_cons_of_not_mapping (not_exists.mp hinner) hpath]
      simp [hpath, not_exists.mp hinner]

/-- Only the first name of a path is looked up in the mapping itself. -/
theorem walk?_congr
    (h : ∀ first, path.head? = some first → Assoc.get? m first = Assoc.get? n first) :
    m.walk? path = n.walk? path := by
  rcases path with _ | ⟨name, _ | ⟨next, rest⟩⟩
  · rfl
  · exact h name rfl
  · simp only [walk?, h name rfl]

/-! ### Paths that are cut off -/

/-- **A mapping cuts off a path** if it holds something other than a mapping at a proper beginning of
it. -/
def CutsOff (m : Mapping) (path : List String) : Prop :=
  ∃ before v, before <+: path ∧ before ≠ path ∧ m.walk? before = some v ∧ v.isMapping = false

instance (m : Mapping) (path : List String) : Decidable (m.CutsOff path) :=
  decidable_of_iff (∃ before ∈ path.inits, before ≠ path ∧
      ∃ v ∈ m.walk? before, v.isMapping = false)
    ⟨fun ⟨before, hbefore, hne, v, hv, hmapping⟩ =>
        ⟨before, v, (List.mem_inits _ _).mp hbefore, hne, hv, hmapping⟩,
      fun ⟨before, v, hbefore, hne, hv, hmapping⟩ =>
        ⟨before, (List.mem_inits _ _).mpr hbefore, hne, v, hv, hmapping⟩⟩

/-- A path is cut off at its first key, or behind it. -/
theorem cutsOff_cons_iff : m.CutsOff (name :: path) ↔
    path ≠ [] ∧ ∃ v, Assoc.get? m name = some v ∧
      (v.isMapping = false ∨ ∃ inner, v = .mapping inner ∧ CutsOff inner path) := by
  constructor
  · -- a beginning of one key is the cut itself; a longer one goes on in the mapping at that key
    rintro ⟨before, w, hprefix, hne, hwalk, hw⟩
    rcases before with _ | ⟨first, before⟩
    · cases hwalk
    obtain ⟨rfl, hbefore⟩ := List.cons_prefix_cons.mp hprefix
    have hproper : before ≠ path := fun he => hne (congrArg _ he)
    have hpath : path ≠ [] := by
      intro hnil
      rw [hnil] at hbefore hproper
      exact hproper (List.prefix_nil.mp hbefore)
    refine ⟨hpath, ?_⟩
    obtain ⟨-, hfirst⟩ | ⟨inner, hinner, hrest⟩ := walk?_cons_eq_some_iff.mp hwalk
    · exact ⟨w, hfirst, .inl hw⟩
    · exact ⟨_, hinner, .inr ⟨inner, rfl, before, w, hbefore, hproper, hrest, hw⟩⟩
  · rintro ⟨hpath, v, hv, hmapping | ⟨inner, rfl, before, w, hbefore, hproper, hrest, hw⟩⟩
    · refine ⟨[name], v, List.cons_prefix_cons.mpr ⟨rfl, List.nil_prefix⟩, ?_, hv, hmapping⟩
      exact fun he => hpath (List.cons.inj he).2.symm
    · have hwalk := walk?_cons_eq_some_iff.mpr (.inr ⟨inner, hv, hrest⟩)
      exact ⟨name :: before, w, List.cons_prefix_cons.mpr ⟨rfl, hbefore⟩,
        fun he => hproper (List.cons.inj he).2, hwalk, hw⟩

theorem cutsOff_cons_of_mapping (h : Assoc.get? m name = some (.mapping inner)) (hpath : path ≠ []) :
    m.CutsOff (name :: path) ↔ inner.CutsOff path := by
  simp [cutsOff_cons_iff, h, hpath]

/-- Nothing is held behind a cut. -/
theorem walk?_of_cutsOff (h : m.CutsOff path) : m.walk? path = none := by
  induction path generalizing m with
  | nil => rfl
  | cons name path ih =>
    obtain ⟨hpath, v, hv, hmapping | ⟨inner, rfl, hinner⟩⟩ := cutsOff_cons_iff.mp h
    · refine walk?_cons_of_not_mapping (fun inner hinner => ?_) hpath
      obtain rfl := Option.some.inj (hv.symm.trans hinner)
      cases hmapping
    · rw [walk?_cons_of_mapping hv hpath, ih hinner]

/-! ### Merging -/

variable {base overlay : Mapping} {key : String}

theorem get?_merge_of_none (h : Assoc.get? overlay key = none) (base : Mapping) :
    Assoc.get? (merge base overlay) key = Assoc.get? base key := by
  rw [get?_merge, h, Option.map_none, Option.none_or]

theorem get?_merge_of_some (h : Assoc.get? overlay key = some v) (base : Mapping) :
    Assoc.get? (merge base overlay) key = some (v.laidOver (Assoc.get? base key)) := by
  rw [get?_merge, h, Option.map_some, Option.some_or]

/-- **A merge, read at a path**: the upper value over the lower one, or the upper one alone; and where
there is no upper one, the lower one, unless the upper mapping cuts off the path. -/
theorem walk?_merge (base overlay : Mapping) (path : List String) :
    (merge base overlay).walk? path
      = ((overlay.walk? path).map (Value.laidOver (base.walk? path))).or
        (if overlay.CutsOff path then none else base.walk? path) := by
  induction path generalizing base overlay with
  | nil => simp
  | cons name path ih =>
    by_cases hpath : path = []
    · subst hpath
      have hcut : ¬ overlay.CutsOff [name] := fun h => (cutsOff_cons_iff.mp h).1 rfl
      rw [if_neg hcut]
      exact get?_merge base overlay name
    rcases hover : Assoc.get? overlay name with _ | v
    · -- the upper mapping does not have the first key, so all is as below
      have hnone : overlay.walk? (name :: path) = none :=
        walk?_cons_of_not_mapping (fun inner => by simp [hover]) hpath
      have hcut : ¬ overlay.CutsOff (name :: path) := by simp [cutsOff_cons_iff, hover]
      rw [hnone, if_neg hcut, Option.map_none, Option.none_or]
      refine walk?_congr fun first hfirst => ?_
      obtain rfl := Option.some.inj hfirst
      exact get?_merge_of_none hover base
    have hmerge := get?_merge_of_some hover base
    by_cases hv : v.isMapping = true
    · obtain ⟨o, rfl⟩ := Value.isMapping_iff.mp hv
      rw [walk?_cons_of_mapping hover hpath, if_congr (cutsOff_cons_of_mapping hover hpath) rfl rfl]
      by_cases hbase : ∃ b, Assoc.get? base name = some (.mapping b)
      · -- mappings on both sides, which are merged in turn
        obtain ⟨b, hb⟩ := hbase
        rw [hb] at hmerge
        have hboth : Assoc.get? (merge base overlay) name = some (.mapping (merge b o)) := hmerge
        rw [walk?_cons_of_mapping hboth hpath, walk?_cons_of_mapping hb hpath, ih]
      · -- the lower mapping has nothing on this path, and the upper one stays as it is
        have hb : ∀ b, Assoc.get? base name ≠ some (.mapping b) := not_exists.mp hbase
        rw [Value.laidOver_of_not_mapping_below hb] at hmerge
        rw [walk?_cons_of_mapping hmerge hpath, walk?_cons_of_not_mapping hb hpath, ite_self,
          Option.or_none]
        exact Option.map_id'.symm
    · -- the upper mapping cuts off the path at its first key, and so does the merge
      rw [Bool.not_eq_true] at hv
      rw [Value.laidOver_of_not_isMapping hv] at hmerge
      have hcut : overlay.CutsOff (name :: path) :=
        cutsOff_cons_iff.mpr ⟨hpath, v, hover, .inl hv⟩
      have hcut' : (merge base overlay).CutsOff (name :: path) :=
        cutsOff_cons_iff.mpr ⟨hpath, v, hmerge, .inl hv⟩
      rw [walk?_of_cutsOff hcut', walk?_of_cutsOff hcut, if_pos hcut]
      rfl

/-- Null cuts off what is below it, and an empty mapping does not. -/
example :
    let base : Mapping := [("a", .mapping [("x", .bool true), ("y", .mapping [("z", .bool true)])])]
    let overlay : Mapping := [("a", .mapping [("x", .mapping []), ("y", .null)])]
    (merge base overlay).walk? ["a", "x"] = some (.mapping []) ∧
      overlay.CutsOff ["a", "y", "z"] ∧ (merge base overlay).walk? ["a", "y", "z"] = none ∧
      (merge base [("a", .mapping [])]).walk? ["a", "y", "z"] = some (.bool true) :=
  ⟨rfl, by decide, rfl, rfl⟩

theorem walk?_merge_of_some (h : overlay.walk? path = some v) (base : Mapping) :
    (merge base overlay).walk? path = some (v.laidOver (base.walk? path)) := by
  rw [walk?_merge, h, Option.map_some, Option.some_or]

theorem walk?_merge_of_cutsOff (h : overlay.CutsOff path) (base : Mapping) :
    (merge base overlay).walk? path = none := by
  rw [walk?_merge, walk?_of_cutsOff h, if_pos h]
  rfl

theorem walk?_merge_of_none (h : overlay.walk? path = none) (hcut : ¬ overlay.CutsOff path)
    (base : Mapping) : (merge base overlay).walk? path = base.walk? path := by
  rw [walk?_merge, h, if_neg hcut, Option.map_none, Option.none_or]

theorem mem_keys_merge : key ∈ Assoc.keys (merge base overlay) ↔
    key ∈ Assoc.keys base ∨ key ∈ Assoc.keys overlay := by
  rw [← Assoc.get?_ne_none_iff, ← Assoc.get?_ne_none_iff, ← Assoc.get?_ne_none_iff, get?_merge]
  cases Assoc.get? overlay key <;> simp

/-- Which paths lead to anything in a merge. -/
theorem walk?_merge_ne_none_iff : (merge base overlay).walk? path ≠ none ↔
    overlay.walk? path ≠ none ∨ (base.walk? path ≠ none ∧ ¬ overlay.CutsOff path) := by
  rw [walk?_merge]
  cases overlay.walk? path <;> by_cases hcut : overlay.CutsOff path <;> simp [hcut]

/-- **Deep merge, path by path.** What a merge holds at the end of a path is

* what the upper mapping holds there, unless both hold a mapping there;
* if both do, a mapping with the keys of either one;
* nothing, if the upper mapping holds something other than a mapping on the way;
* otherwise what the lower mapping holds there.

So a path leads to something in the merge if and only if it does so in the upper mapping, or in the
lower one and the upper one does not cut it off: nothing is lost but what is cut off, and nothing
else appears. -/
theorem merge_pathwise (base overlay : Mapping) (path : List String) :
    (∀ v, overlay.walk? path = some v →
      ¬ (v.isMapping = true ∧ ∃ below, base.walk? path = some below ∧ below.isMapping = true) →
        (merge base overlay).walk? path = some v) ∧
    (∀ o b, overlay.walk? path = some (.mapping o) → base.walk? path = some (.mapping b) →
      ∃ m, (merge base overlay).walk? path = some (.mapping m) ∧
        ∀ key, key ∈ Assoc.keys m ↔ key ∈ Assoc.keys b ∨ key ∈ Assoc.keys o) ∧
    (overlay.CutsOff path → (merge base overlay).walk? path = none) ∧
    (overlay.walk? path = none → ¬ overlay.CutsOff path →
      (merge base overlay).walk? path = base.walk? path) ∧
    ((merge base overlay).walk? path ≠ none ↔
      overlay.walk? path ≠ none ∨ (base.walk? path ≠ none ∧ ¬ overlay.CutsOff path)) := by
  refine ⟨fun v hv hnot => ?upper, fun o b ho hb => ?both, fun hcut => walk?_merge_of_cutsOff hcut base,
    fun hnone hcut => walk?_merge_of_none hnone hcut base, walk?_merge_ne_none_iff⟩
  case upper =>
    rw [walk?_merge_of_some hv]
    by_cases hmapping : v.isMapping = true
    · have hbelow : ∀ b, base.walk? path ≠ some (.mapping b) :=
        fun b hb => hnot ⟨hmapping, _, hb, rfl⟩
      rw [Value.laidOver_of_not_mapping_below hbelow]
    · rw [Value.laidOver_of_not_isMapping (Bool.eq_false_iff.mpr hmapping)]
  case both =>
    refine ⟨merge b o, ?_, fun key => mem_keys_merge⟩
    rw [walk?_merge_of_some ho, hb]
    rfl

end Mapping

end PipelineConfig
