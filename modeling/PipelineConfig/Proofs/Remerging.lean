import PipelineConfig.Proofs.CanonicalConfiguration

/-!
# Merging something in once more

A source that has been mixed into a configuration has nothing to add to it. So it may be mixed in
again, also through another filter, as long as that filter does not let through more of it than the
first one did (`PipelineConfig.Mapping.mixIn_mixIn`). In particular a configuration absorbs itself and
any part of itself (`PipelineConfig.Mapping.mixIn_self`).

This is not for free, although the upper value wins wherever it is not a mapping. Where mappings are
merged the outcome is neither of the two, and laying the upper one over that outcome has to come down
to laying each value in it over what has become of this value. That is an induction on the upper value
(`PipelineConfig.Value.laidOver_laidOver`), which needs no case of its own for a first time, with
nothing below.

A mapping whose keys do not ascend would be put in order by a merge and so not be absorbed. Therefore
everything here is said of canonical mappings, and for a configuration that is resolved from canonical
documents `PipelineConfig.Request.canonical_of_resolve` has it that it is one.
-/

namespace PipelineConfig

/-! ### One value twice -/

theorem Mapping.nil_merge {m : Mapping} (h : Assoc.Sorted m) : merge [] m = m := by
  refine (sorted_merge canonical_nil.sorted m).ext h fun key => ?_
  rw [get?_merge]
  cases Assoc.get? m key <;> rfl

/-- **A value that has been laid over something is not laid over it again**: the second time changes
nothing. -/
theorem Value.laidOver_laidOver {v : Value} (hv : v.Canonical) {below? : Option Value}
    (hbelow : ∀ b ∈ below?, b.Canonical) :
    v.laidOver (some (v.laidOver below?)) = v.laidOver below? := by
  induction v using Value.induction_on generalizing below? with
  | mapping overlay ih =>
    have hover : Mapping.Canonical overlay := hv
    have hmerge (base : Mapping) (hbase : base.Canonical) :
        Mapping.merge (Mapping.merge base overlay) overlay = Mapping.merge base overlay := by
      have hsorted : Assoc.Sorted (Mapping.merge base overlay) :=
        Mapping.sorted_merge hbase.sorted overlay
      refine (Mapping.sorted_merge hsorted overlay).ext hsorted fun key => ?_
      rw [Mapping.get?_merge, Mapping.get?_merge]
      rcases ho : Assoc.get? overlay key with _ | o
      · rfl
      · have hlower : ∀ b ∈ Assoc.get? base key, b.Canonical := fun b hb => hbase.get? hb
        have hinner := ih (key, o) (Assoc.mem_of_get? ho) (hover.get? ho) hlower
        exact congrArg some hinner
    by_cases hmapping : ∃ base, below? = some (mapping base)
    · obtain ⟨base, rfl⟩ := hmapping
      exact congrArg mapping (hmerge base (hbelow _ rfl))
    · -- with no mapping below, the value is taken as it is, as if there were an empty one
      rw [laidOver_of_not_mapping_below (not_exists.mp hmapping)]
      have hself := hmerge [] Mapping.canonical_nil
      rw [Mapping.nil_merge hover.sorted] at hself
      exact congrArg mapping hself
  | _ => rw [laidOver_of_not_isMapping rfl, laidOver_of_not_isMapping rfl]

/-- A value laid over itself is the value. -/
theorem Value.laidOver_self {v : Value} (hv : v.Canonical) : v.laidOver (some v) = v := by
  have hbelow : ∀ b ∈ (none : Option Value), b.Canonical := by simp
  exact laidOver_laidOver hv hbelow

namespace Mapping

variable {target source m : Mapping} {F G : List String}

/-! ### One source twice -/

/-- **What is mixed in, read at a key**: what the filter does not admit is not there. -/
theorem get?_mixIn (target source : Mapping) (allow : List String) (key : String) :
    Assoc.get? (mixIn target source allow) key =
      if admits allow key then
        ((Assoc.get? source key).map (Value.laidOver (Assoc.get? target key))).or
          (Assoc.get? target key)
      else Assoc.get? target key := by
  rw [mixIn, get?_merge, get?_keep]
  split
  · rfl
  · rw [Option.map_none, Option.none_or]

/-- **A source is absorbed by what it has been mixed into**, if the second filter admits no more of it
than the first one. -/
theorem mixIn_mixIn (ht : target.Canonical) (hs : source.Canonical)
    (h : ∀ key ∈ Assoc.keys source, admits G key = true → admits F key = true) :
    mixIn (mixIn target source F) source G = mixIn target source F := by
  have hsorted : Assoc.Sorted (mixIn target source F) := sorted_merge ht.sorted _
  refine (sorted_merge hsorted _).ext hsorted fun key => ?_
  rw [← mixIn, get?_mixIn]
  by_cases hG : admits G key = true
  · rw [if_pos hG]
    rcases hv : Assoc.get? source key with _ | v
    · rw [Option.map_none, Option.none_or]
    · have hkey : key ∈ Assoc.keys source := Assoc.mem_keys_iff.mpr ⟨v, Assoc.mem_of_get? hv⟩
      have hmixed : Assoc.get? (mixIn target source F) key
          = some (v.laidOver (Assoc.get? target key)) := by
        rw [get?_mixIn, if_pos (h key hkey hG), hv, Option.map_some, Option.some_or]
      rw [hmixed, Option.map_some, Option.some_or,
        Value.laidOver_laidOver (hs.get? hv) fun b hb => ht.get? hb]
  · rw [if_neg hG]

/-- **A canonical mapping absorbs itself**, and whatever part of it passes a filter. -/
theorem mixIn_self (h : m.Canonical) (allow : List String) : mixIn m m allow = m := by
  refine (sorted_merge h.sorted _).ext h.sorted fun key => ?_
  rw [← mixIn, get?_mixIn]
  split
  · rcases hv : Assoc.get? m key with _ | v
    · rfl
    · rw [Option.map_some, Option.some_or, Value.laidOver_self (h.get? hv)]
  · rfl

/-- An empty list of names is no filter. -/
theorem keep_nil (m : Mapping) : keep m [] = m :=
  List.filter_eq_self.mpr fun _ _ => rfl

end Mapping

/-! ### Resolved configurations -/

namespace Request

open Mapping

/-- **A source is absorbed** by what it has been mixed into, through whatever filters, as long as the
second admits no key of it that the first does not admit. So a configuration that has been resolved,
or any part of it that a filter leaves, can be merged back into it, and so can the settings for
collaborators. -/
theorem mixIn_absorbs :
    (∀ (target source : Mapping) (F G : List String), target.Canonical → source.Canonical →
      (∀ key ∈ Assoc.keys source, admits G key = true → admits F key = true) →
        mixIn (mixIn target source F) source G = mixIn target source F) ∧
    (∀ (r : Request) (ds : DocumentSet) (c : Context) (s : StepConfig), r.Canonical → ds.Canonical →
      (r.resolve ds c).1 = .ok s →
        (merge s.config s.config = s.config ∧
          ∀ allow, merge s.config (keep s.config allow) = s.config) ∧
        merge s.hooks s.hooks = s.hooks ∧
          ∀ allow, merge s.hooks (keep s.hooks allow) = s.hooks) := by
  have hself (m : Mapping) (hm : m.Canonical) :
      merge m m = m ∧ ∀ allow, merge m (keep m allow) = m := by
    refine ⟨?_, mixIn_self hm⟩
    have hall := mixIn_self hm []
    rwa [mixIn, keep_nil] at hall
  refine ⟨fun target source F G ht hs h => mixIn_mixIn ht hs h, fun r ds c s hr hds h => ?_⟩
  obtain ⟨hconfig, hhooks⟩ := canonical_of_resolve hr hds h
  exact ⟨hself s.config hconfig, hself s.hooks hhooks⟩

/-- Mappings are merged, replaced and set to null on the way in, and the second filter has a name that
the first one does not have and the source neither. The configuration has a text with a reference and
a nested mapping from a flag. -/
theorem mixIn_absorbs_nested :
    let target : Mapping := [("env", .mapping [("A", .string "1")]), ("image", .string "base")]
    let source : Mapping := [("env", .mapping [("A", .null), ("B", .mapping [])]),
      ("image", .mapping [("name", .string "x")]), ("level", .bool true)]
    let F := ["env", "image"]
    let G := ["image", "note"]
    let project : ConfigDocument := { ConfigDocument.empty with
      general := [("env", .mapping [("A", .string "1")]), ("greeting", .string "for $(who)"),
        ("who", .string "all")]
      hooks := [("scan", .mapping [("on", .bool true)])] }
    let r : Request := { Request.bare "Build" "scan" with
      flags := [("env", .mapping [("B", .mapping [("C", .null)])])] }
    let c : Context := ⟨fun _ => none, 0, []⟩
    (target.Canonical ∧ source.Canonical ∧
      (∀ key ∈ Assoc.keys source, admits G key = true → admits F key = true) ∧
        mixIn (mixIn target source F) source G = mixIn target source F) ∧
    r.Canonical ∧ (DocumentSet.ofProject project).Canonical ∧
      ∃ s, (r.resolve (.ofProject project) c).1 = .ok s ∧
        Assoc.keys s.config = ["env", "greeting", "who"] ∧
        (merge s.config s.config = s.config ∧
          ∀ allow, merge s.config (keep s.config allow) = s.config) ∧
        merge s.hooks s.hooks = s.hooks ∧
          ∀ allow, merge s.hooks (keep s.hooks allow) = s.hooks := by
  intro target source F G project r c
  have ht : target.Canonical := by
    simp only [target, Mapping.Canonical, Value.Canonical, Value.CanonicalEntries, Assoc.Sorted]
    decide
  have hs : source.Canonical := by
    simp only [source, Mapping.Canonical, Value.Canonical, Value.CanonicalEntries, Assoc.Sorted]
    decide
  have hFG : ∀ key ∈ Assoc.keys source, admits G key = true → admits F key = true := by decide
  have hr : r.Canonical := by
    refine ⟨List.forall_mem_nil _, canonical_nil, ?_⟩
    simp only [r, Mapping.Canonical, Value.Canonical, Value.CanonicalEntries, Assoc.Sorted]
    decide
  have hproject : project.Canonical := by
    refine ⟨?general, List.forall_mem_nil _, List.forall_mem_nil _, ?hooks⟩ <;>
      simp only [project, Mapping.Canonical, Value.Canonical, Value.CanonicalEntries,
        Assoc.Sorted] <;>
      decide
  have hds : (DocumentSet.ofProject project).Canonical :=
    ⟨hproject, List.forall_mem_nil _, List.forall_mem_nil _⟩
  refine ⟨⟨ht, hs, hFG, mixIn_absorbs.1 target source F G ht hs hFG⟩, hr, hds, ?_⟩
  refine (map_eq_ok_iff.mp ?keys).imp fun s h =>
    ⟨h.1, h.2, mixIn_absorbs.2 r _ c s hr hds h.1⟩
  case keys => decide +kernel

end Request

end PipelineConfig
