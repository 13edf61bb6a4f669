import PipelineConfig.Proofs.References

/-!
# A resolved mapping is resolved already

What is put in the place of a reference is any text. It may hold further references, or parts of some
that only become whole with the text beside them, so nothing can be said of a text between two
passes. But the passes end in one way only: a text is returned when it has just been searched in vain
(`PipelineConfig.Template.names_of_interpolateChars`).

Searching finds a reference wherever one is written, so in a resolved text none is written anywhere
(`PipelineConfig.Template.ReferenceFree`). Call a value *settled* if it is such a text or no text at
all. Then resolving leaves settled values alone, and it makes settled values only. Hence to resolve a
mapping once more changes nothing (`PipelineConfig.Template.fixedPoint_of_interpolateMapping`).

Only the entries of the mapping itself are resolved. A sequence or a mapping among them is settled as
it stands, with any references in the texts inside it.
-/

namespace PipelineConfig

namespace Template

variable {lookup : Mapping} {key : String}

/-! ### Texts without references -/

/-- No reference is written anywhere in some characters. -/
def ReferenceFree (cs : List Char) : Prop :=
  ∀ name, IsName name → ¬ written name <:+: cs

theorem referenceFree_iff {cs : List Char} : ReferenceFree cs ↔ names cs = [] := by
  constructor
  · intro h
    rw [List.eq_nil_iff_forall_not_mem]
    intro name hmem
    obtain ⟨hname, before, after, heq⟩ := mem_names_iff.mp hmem
    exact h name.toList hname ⟨before, after, heq.symm⟩
  · rintro h name hname ⟨before, after, heq⟩
    have hmem : String.ofList name ∈ names cs := by
      rw [mem_names_iff, String.toList_ofList]
      exact ⟨hname, before, after, heq.symm⟩
    rw [h] at hmem
    cases hmem

/-- Where nothing is referred to, everything that is referred to is there. -/
theorem isResolvable_of_referenceFree {text : String} (h : ReferenceFree text.toList)
    (lookup : Mapping) : isResolvable text lookup = true := by
  rw [isResolvable, references, referenceFree_iff.mp h]
  rfl

/-- **The passes end with a text without references**, whatever has been put in on the way. -/
theorem names_of_interpolateChars {passes : Nat} {cs resolved : List Char}
    (h : interpolateChars key lookup passes cs = .ok resolved) : names resolved = [] := by
  -- the text changes from pass to pass, and only of the last one it is known what a search finds
  induction passes generalizing cs with
  | zero =>
    obtain ⟨hnames, rfl⟩ := interpolateChars_zero_eq_ok_iff.mp h
    exact hnames
  | succ passes ih =>
    obtain ⟨ds, -, hds⟩ := interpolateChars_succ_eq_ok_iff.mp h
    exact ih hds

/-! ### Settled values -/

/-- A value with which nothing is to be done: if it is a text, no reference is written in it. -/
def Settled (v : Value) : Prop :=
  ∀ text, v = .string text → ReferenceFree text.toList

theorem resolveValue_of_settled {v : Value} (h : Settled v) (key : String) (lookup : Mapping) :
    resolveValue key lookup v = .ok v :=
  resolveValue_of_references_nil (fun text htext => referenceFree_iff.mp (h text htext)) key lookup

theorem settled_of_resolveValue {v w : Value} (h : resolveValue key lookup v = .ok w) :
    Settled w := by
  rintro text rfl
  cases v with
  | string s =>
    obtain ⟨resolved, hresolved, htext⟩ := map_eq_ok_iff.mp h
    obtain rfl := Value.string.inj htext
    exact referenceFree_iff.mpr (names_of_interpolateChars (interpolate_eq_ok_iff.mp hresolved))
  | _ => cases h

/-! ### Mappings -/

variable {config resolved : Mapping}

/-- Every entry of a resolved mapping is settled. -/
theorem settled_of_mem_interpolateMapping (h : interpolateMapping config = .ok resolved)
    {v : Value} (hv : (key, v) ∈ resolved) : Settled v := by
  obtain ⟨e, -, he⟩ := (mem_iff_of_mapM_eq_ok h (key, v)).mp hv
  rw [interpolateEntry_eq, map_eq_ok_iff] at he
  obtain ⟨w, hw, heq⟩ := he
  rw [← (Prod.mk.inj heq).2]
  exact settled_of_resolveValue hw

/-- A mapping whose entries are settled is left alone. -/
theorem interpolateMapping_of_settled (h : ∀ key v, (key, v) ∈ config → Settled v) :
    interpolateMapping config = .ok config := by
  rw [interpolateMapping, mapM_eq_ok_iff]
  refine List.map_congr_left fun e he => ?_
  rw [interpolateEntry_eq, resolveValue_of_settled (h e.1 e.2 he)]
  rfl

/-- **Resolving a mapping leads to a fixed point**: the keys stay, and so does every value that is no
text, or a text in which no reference is written; there is no reference in any text of the outcome,
so that each of them counts as resolvable against whatever mapping; and resolving the outcome gives
the outcome. -/
theorem fixedPoint_of_interpolateMapping (h : interpolateMapping config = .ok resolved) :
    Assoc.keys resolved = Assoc.keys config ∧
    (∀ key v, Assoc.get? config key = some v → Settled v → Assoc.get? resolved key = some v) ∧
    (∀ key text, (key, .string text) ∈ resolved →
      ReferenceFree text.toList ∧ ∀ lookup, isResolvable text lookup = true) ∧
    interpolateMapping resolved = .ok resolved := by
  refine ⟨keys_interpolateMapping h, fun key v hv hsettled => ?kept, fun key text htext => ?free,
    interpolateMapping_of_settled fun key v hv => settled_of_mem_interpolateMapping h hv⟩
  case kept =>
    obtain ⟨w, hw, hget⟩ := get?_interpolateMapping h hv
    rw [resolveValue_of_settled hsettled] at hw
    obtain rfl := Except.ok.inj hw
    exact hget
  case free =>
    have hfree : ReferenceFree text.toList := settled_of_mem_interpolateMapping h htext text rfl
    exact ⟨hfree, isResolvable_of_referenceFree hfree⟩

/-- The reference to `d` only comes about in the first pass, and what it stands for ends with the
beginning of another one. The text inside the mapping is no entry. -/
theorem fixedPoint_of_interpolateMapping_joined :
    let inner : Value := .mapping [("text", .string "$(a)")]
    let config : Mapping := [("a", .string "$(b)$(c)"), ("b", .string "$"), ("c", .string "(d)"),
      ("d", .string "done $("), ("m", inner), ("n", .null)]
    let resolved : Mapping := [("a", .string "done $("), ("b", .string "$"), ("c", .string "(d)"),
      ("d", .string "done $("), ("m", inner), ("n", .null)]
    interpolateMapping config = .ok resolved ∧
      Assoc.keys resolved = Assoc.keys config ∧
      Assoc.get? resolved "m" = some inner ∧ Assoc.get? resolved "c" = some (.string "(d)") ∧
      ReferenceFree "done $(".toList ∧ interpolateMapping resolved = .ok resolved := by
  intro inner config resolved
  have h : interpolateMapping config = .ok resolved := by rfl
  obtain ⟨hkeys, hkept, hfree, hfixed⟩ := fixedPoint_of_interpolateMapping h
  have hparentheses : ReferenceFree "(d)".toList := referenceFree_iff.mpr (by decide)
  refine ⟨h, hkeys, hkept "m" inner rfl fun text htext => Value.noConfusion htext,
    hkept "c" _ rfl fun text htext => ?_, (hfree "a" _ List.mem_cons_self).1, hfixed⟩
  exact Value.string.inj htext ▸ hparentheses

end Template

end PipelineConfig
