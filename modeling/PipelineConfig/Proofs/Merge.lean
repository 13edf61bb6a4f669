import Mathlib.Data.List.DropRight
import PipelineConfig.Proofs.Assoc
import PipelineConfig.Value.Merge

/-!
# What a merge holds under a key

`PipelineConfig.Mapping.merge` walks the upper of two mappings. Asked for one key it is much
simpler: the upper value is laid over the lower one if both are there, and otherwise the one that is
there is kept (`PipelineConfig.Mapping.get?_merge`). Nothing about any other key matters.

From this follows what a whole pile of mappings holds under a key
(`PipelineConfig.Mapping.get?_foldl_merge`). Laying one value over another either replaces it or, if
both are mappings, merges it. So a value that is no mapping cuts off everything below it, and what
is left of a pile `v₁, …, vₙ` is decided from its top: it is `vₙ` unless `vₙ` is a mapping, and then
it is the merge of the mappings at the top of the pile, as far down as they reach without a gap.
That is `PipelineConfig.Value.layered?`.

A merge onto a sorted mapping is sorted. So the mapping that a pile makes is known once the values
under each key are known (`PipelineConfig.Mapping.foldl_merge_congr`).
-/

namespace PipelineConfig

namespace Value

/-- Whether a value is a mapping. -/
def isMapping (v : Value) : Bool :=
  v.asMapping?.isSome

/-- Lay a value over what may stand below it. -/
def laidOver (below? : Option Value) (v : Value) : Value :=
  match below? with
  | some below => merge below v
  | none => v

/-- **The value that a pile of values makes**, lowest value first. The mappings at the top of the
pile are merged from the lowest up; without a mapping at the top the uppermost value is taken as it
is, and an empty pile makes nothing. -/
def layered? (pile : List Value) : Option Value :=
  match pile.rtakeWhile isMapping with
  | [] => pile.getLast?
  | v :: rest => some (rest.foldl merge v)

/-! ### One value over another -/

@[simp] theorem isMapping_mapping (m : Mapping) : (mapping m).isMapping = true := rfl

theorem isMapping_iff {v : Value} : v.isMapping = true ↔ ∃ m, v = mapping m := by
  cases v <;> simp [isMapping, asMapping?]

theorem asMapping?_eq_some_iff {v : Value} {m : Mapping} :
    v.asMapping? = some m ↔ v = mapping m := by
  cases v <;> simp [asMapping?]

theorem merge_of_not_isMapping {v : Value} (h : v.isMapping = false) (below : Value) :
    merge below v = v := by
  cases v with
  | mapping m => simp at h
  | _ => cases below <;> rfl

theorem merge_of_not_isMapping_below {below : Value} (h : below.isMapping = false) (v : Value) :
    merge below v = v := by
  cases below with
  | mapping m => simp at h
  | _ => cases v <;> rfl

theorem laidOver_of_not_isMapping {v : Value} (h : v.isMapping = false) (below? : Option Value) :
    laidOver below? v = v := by
  cases below? with
  | none => rfl
  | some below => exact merge_of_not_isMapping h below

/-- Where there is no mapping below, a value is taken as it is. -/
theorem laidOver_of_not_mapping_below {below? : Option Value} (h : ∀ m, below? ≠ some (mapping m))
    (v : Value) : laidOver below? v = v := by
  rcases below? with _ | below
  · rfl
  · cases below with
    | mapping m => exact absurd rfl (h m)
    | _ => exact merge_of_not_isMapping_below rfl v

/-! ### Piles of values -/

@[simp] theorem layered?_nil : layered? [] = none := rfl

/-- **One more value on a pile** is laid over what the pile makes, and nothing else of the pile
matters. -/
theorem layered?_concat (pile : List Value) (v : Value) :
    layered? (pile ++ [v]) = some (laidOver (layered? pile) v) := by
  by_cases hv : v.isMapping = true
  · rw [layered?, List.rtakeWhile_concat_pos _ _ _ hv, layered?]
    rcases htop : pile.rtakeWhile isMapping with _ | ⟨w, ws⟩
    · -- the value is the only mapping at the top, so what is below it is no mapping
      rcases eq_or_ne pile [] with rfl | hne
      · rfl
      · have hbelow : (pile.getLast hne).isMapping = false :=
          Bool.eq_false_iff.mpr (List.rtakeWhile_eq_nil_iff.mp htop hne)
        rw [List.getLast?_eq_some_getLast hne, laidOver, merge_of_not_isMapping_below hbelow]
        rfl
    · simp [laidOver]
  · rw [layered?, List.rtakeWhile_concat_neg _ _ _ hv,
      laidOver_of_not_isMapping (Bool.eq_false_iff.mpr hv)]
    simp

/-- What a mapping is laid over, the outcome is a mapping. -/
theorem isMapping_laidOver {v : Value} (h : v.isMapping = true) (below? : Option Value) :
    (laidOver below? v).isMapping = true := by
  cases v with
  | mapping m =>
    rcases below? with _ | below
    · rfl
    · cases below <;> rfl
  | _ => simp [isMapping, asMapping?] at h

/-- A pile makes a value other than a mapping only if that is the one on top. -/
theorem exists_eq_concat_of_layered? {pile : List Value} {v : Value} (hv : v.isMapping = false)
    (h : layered? pile = some v) : ∃ below, pile = below ++ [v] := by
  rcases List.eq_nil_or_concat pile with rfl | ⟨below, top, rfl⟩
  · cases h
  · rw [List.concat_eq_append, layered?_concat, Option.some.injEq] at h
    by_cases htop : top.isMapping = true
    · rw [← h, isMapping_laidOver htop] at hv
      cases hv
    · rw [laidOver_of_not_isMapping (Bool.eq_false_iff.mpr htop)] at h
      exact ⟨below, by rw [List.concat_eq_append, h]⟩

end Value

namespace Mapping

/-! ### One mapping over another -/

/-- **A merge, read at a key**: the upper value over the lower one, or the only value there is. -/
theorem get?_merge (base overlay : Mapping) (key : String) :
    Assoc.get? (merge base overlay) key
      = ((Assoc.get? overlay key).map (Value.laidOver (Assoc.get? base key))).or
        (Assoc.get? base key) := by
  rw [merge]
  induction overlay with
  | nil => rfl
  | cons e rest ih =>
    obtain ⟨k, v⟩ := e
    rw [mergeEntries, Assoc.get?_insert, Assoc.get?_cons, ih]
    by_cases hk : k = key
    · subst hk
      cases Assoc.get? base k <;> simp [Value.laidOver]
    · simp [hk]

/-- A filtered mapping holds what the mapping holds, under the admitted keys. -/
theorem get?_keep (m : Mapping) (allow : List String) (key : String) :
    Assoc.get? (keep m allow) key = if admits allow key then Assoc.get? m key else none :=
  Assoc.get?_filter (admits allow) m key

/-! ### Piles of mappings -/

/-- **A pile of mappings, read at a key**, is the pile of the values that they hold there. -/
theorem get?_foldl_merge (sources : List Mapping) (key : String) :
    Assoc.get? (sources.foldl merge []) key
      = Value.layered? (sources.filterMap (fun m => Assoc.get? m key)) := by
  -- by what is laid on top last, since that is what decides
  induction sources using List.reverseRecOn with
  | nil => rfl
  | append_singleton below m ih =>
    rw [List.foldl_concat, get?_merge, ih, List.filterMap_append]
    rcases hm : Assoc.get? m key with _ | v
    · simp [hm]
    · simp [hm, Value.layered?_concat]

/-! ### Order -/

theorem sorted_merge {base : Mapping} (h : Assoc.Sorted base) (overlay : Mapping) :
    Assoc.Sorted (merge base overlay) := by
  rw [merge]
  induction overlay with
  | nil => exact h
  | cons e rest ih =>
    obtain ⟨k, v⟩ := e
    rw [mergeEntries]
    exact ih.insert k _

/-- A pile of mappings makes a sorted mapping, whatever the order inside each of them. -/
theorem sorted_foldl_merge (sources : List Mapping) : Assoc.Sorted (sources.foldl merge []) := by
  induction sources using List.reverseRecOn with
  | nil => exact List.Pairwise.nil
  | append_singleton below m ih =>
    rw [List.foldl_concat]
    exact sorted_merge ih m

/-- **Two piles that hold the same values under every key make the same mapping.** -/
theorem foldl_merge_congr {sources sources' : List Mapping}
    (h : ∀ key, sources.filterMap (fun m => Assoc.get? m key)
      = sources'.filterMap (fun m => Assoc.get? m key)) :
    sources.foldl merge [] = sources'.foldl merge [] := by
  refine (sorted_foldl_merge sources).ext (sorted_foldl_merge sources') fun key => ?_
  rw [get?_foldl_merge, get?_foldl_merge, h]

end Mapping

end PipelineConfig
