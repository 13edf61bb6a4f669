import PipelineConfig.Proofs.FirstError
import PipelineConfig.Template

/-!
# Resolving a mapping, entry by entry

`PipelineConfig.Template.interpolateMapping` resolves all texts of a mapping, and the first that
cannot be resolved ends it. Where it succeeds, every entry has been resolved on its own, against the
mapping as it was: a text becomes what `PipelineConfig.Template.interpolate` makes of it, every
other value stays (`PipelineConfig.Template.get?_interpolateMapping`).
-/

namespace PipelineConfig

namespace Template

/-- What a value becomes when the references in it are resolved; only texts can have any. -/
def resolveValue (key : String) (lookup : Mapping) : Value → Except ConfigError Value
  | .string s => (interpolate key s lookup).map .string
  | v => .ok v

theorem interpolateEntry_eq (lookup : Mapping) (key : String) (v : Value) :
    interpolateEntry lookup (key, v) = (resolveValue key lookup v).map (fun w => (key, w)) := by
  cases v with
  | string s =>
    cases h : interpolate key s lookup <;> simp [interpolateEntry, resolveValue, h] <;> rfl
  | _ => rfl

theorem interpolateChars_of_names_nil {cs : List Char} (h : names cs = []) (key : String)
    (lookup : Mapping) (passes : Nat) : interpolateChars key lookup passes cs = .ok cs := by
  cases passes <;> simp [interpolateChars, h]

theorem interpolate_eq (key text : String) (lookup : Mapping) :
    interpolate key text lookup
      = (interpolateChars key lookup maxPasses text.toList).map String.ofList := by
  rw [interpolate]
  cases interpolateChars key lookup maxPasses text.toList <;> rfl

theorem interpolate_eq_ok_iff {key text s : String} {lookup : Mapping} :
    interpolate key text lookup = .ok s
      ↔ interpolateChars key lookup maxPasses text.toList = .ok s.toList := by
  rw [interpolate_eq, map_eq_ok_iff]
  constructor
  · rintro ⟨cs, hcs, rfl⟩
    rwa [String.toList_ofList]
  · exact fun h => ⟨s.toList, h, String.ofList_toList⟩

/-- A text without references is resolved already. -/
theorem interpolate_of_references_nil {text : String} (h : references text = []) (key : String)
    (lookup : Mapping) : interpolate key text lookup = .ok text :=
  interpolate_eq_ok_iff.mpr (interpolateChars_of_names_nil h key lookup maxPasses)

/-- A value that is no text with references is resolved already. -/
theorem resolveValue_of_references_nil {v : Value}
    (h : ∀ text, v = .string text → references text = []) (key : String) (lookup : Mapping) :
    resolveValue key lookup v = .ok v := by
  cases v with
  | string s =>
    rw [resolveValue, interpolate_of_references_nil (h s rfl)]
    rfl
  | _ => rfl

/-- The resolution of references keeps the keys. -/
theorem keys_interpolateMapping {config resolved : Mapping}
    (h : interpolateMapping config = .ok resolved) : Assoc.keys resolved = Assoc.keys config := by
  refine map_of_mapM_eq_ok h fun e he e' he' => ?_
  obtain ⟨w, -, rfl⟩ := map_eq_ok_iff.mp ((interpolateEntry_eq config e.1 e.2).symm.trans he')
  rfl

/-- Resolved entries stand under the keys of the entries. The mapping that is looked up in stays the
same while the entries are walked, so it is a mapping of its own here. -/
theorem get?_of_map_interpolateEntry {lookup entries resolved : Mapping}
    (h : entries.map (interpolateEntry lookup) = resolved.map .ok) {key : String} {v : Value}
    (hv : Assoc.get? entries key = some v) :
    ∃ w, resolveValue key lookup v = .ok w ∧ Assoc.get? resolved key = some w := by
  induction entries generalizing resolved with
  | nil => simp at hv
  | cons e rest ih =>
    obtain ⟨k, u⟩ := e
    rcases resolved with _ | ⟨e', rest'⟩
    · simp at h
    rw [List.map_cons, List.map_cons, List.cons.injEq, interpolateEntry_eq, map_eq_ok_iff] at h
    obtain ⟨⟨w, hw, rfl⟩, hrest⟩ := h
    rw [Assoc.get?_cons] at hv ⊢
    -- an entry keeps its key, so both mappings agree on which entry is found
    by_cases hk : k = key
    · rw [if_pos hk] at hv ⊢
      obtain rfl := Option.some.inj hv
      exact ⟨w, hk ▸ hw, rfl⟩
    · rw [if_neg hk] at hv ⊢
      exact ih hrest hv

/-- **A resolved mapping, read at a key**, holds the resolved value. -/
theorem get?_interpolateMapping {config resolved : Mapping}
    (h : interpolateMapping config = .ok resolved) {key : String} {v : Value}
    (hv : Assoc.get? config key = some v) :
    ∃ w, resolveValue key config v = .ok w ∧ Assoc.get? resolved key = some w :=
  get?_of_map_interpolateEntry (mapM_eq_ok_iff.mp h) hv

end Template

end PipelineConfig
