import Mathlib.Logic.Relation
import Mathlib.Tactic.IntervalCases
import PipelineConfig.Proofs.References

/-!
# Chains of references that are too long

The entry under a name may refer to another name, whose entry refers to a third one, and so on. This
file shows that a text from which such a chain leads on for as many steps as there are passes is
never resolved (`PipelineConfig.Template.interpolate_of_long_chain`), and that there is such a chain
wherever a cycle can be reached.

One pass follows each chain by one reference. For that it does not matter what else is in the text:
what is put in place of a reference brings its own references along, and the text around it takes
none of them away (`PipelineConfig.Template.RefersTo.mem_names`). So after as many passes as are
allowed the end of the chain is still referred to, if no pass has failed before.
-/

namespace PipelineConfig

namespace Template

/-- The entry under one name is a text that refers to another name. -/
def RefersTo (lookup : Mapping) (name other : String) : Prop :=
  ∃ text, Assoc.get? lookup name = some (.string text) ∧ other ∈ references text

/-- The errors with which references are reported: there is no end to them, or one of them is to
what is no text. -/
def IsReferenceError (key : String) (e : ConfigError) : Prop :=
  e = .endlessReferences key maxPasses ∨ ∃ name kind, e = .referenceNotText name key kind

variable {lookup : Mapping} {key : String}

/-- A pass turns a reference into those of its text, whatever stands around it. -/
theorem RefersTo.mem_names {name other : String} (h : RefersTo lookup name other)
    {cs ds : List Char} (hds : substitute key lookup cs = .ok ds) (hname : name ∈ names cs) :
    other ∈ names ds := by
  obtain ⟨text, hget, hother⟩ := h
  obtain ⟨inner, before, after, htext, rfl⟩ := exists_textOf_of_mem_names hds hname
  rw [textOf?, hget] at htext
  obtain rfl := Option.some.inj htext
  exact mem_names_append hother before after

/-- A chain as long as the passes outlasts them. The induction is on the passes, and the chain loses
its first name with each of them. -/
theorem interpolateChars_of_chain {passes : Nat} {chain : Nat → String}
    (hchain : ∀ i < passes, RefersTo lookup (chain i) (chain (i + 1))) {cs : List Char}
    (hstart : chain 0 ∈ names cs) :
    ∃ e, interpolateChars key lookup passes cs = .error e ∧ IsReferenceError key e := by
  induction passes generalizing chain cs with
  | zero =>
    refine ⟨.endlessReferences key maxPasses, ?_, .inl rfl⟩
    rw [interpolateChars, if_neg (List.ne_nil_of_mem hstart)]
  | succ passes ih =>
    rw [interpolateChars_succ]
    cases hds : substitute key lookup cs with
    | error e => exact ⟨e, rfl, .inr (error_of_substitute hds)⟩
    | ok ds =>
      have hnext : chain 1 ∈ names ds := (hchain 0 (by omega)).mem_names hds hstart
      exact @ih (fun i => chain (i + 1)) (fun i hi => hchain (i + 1) (by omega)) ds hnext

/-- From a name that leads into a cycle there are chains of every length. -/
theorem exists_chain_of_cycle {first name : String}
    (hreach : Relation.ReflTransGen (RefersTo lookup) first name)
    (hcycle : Relation.TransGen (RefersTo lookup) name name) (n : Nat) :
    ∃ chain : Nat → String, chain 0 = first ∧
      ∀ i < n, RefersTo lookup (chain i) (chain (i + 1)) := by
  induction n generalizing first with
  | zero => exact ⟨fun _ => first, rfl, by simp⟩
  | succ n ih =>
    -- the cycle can still be reached after the first step
    obtain ⟨second, hstep, hrest⟩ : ∃ second, RefersTo lookup first second ∧
        Relation.ReflTransGen (RefersTo lookup) second name :=
      Relation.TransGen.head'_iff.mp (Relation.TransGen.trans_right hreach hcycle)
    obtain ⟨chain, rfl, hchain⟩ := ih hrest
    refine ⟨fun i => Nat.casesOn i first chain, rfl, ?_⟩
    rintro (_ | i) hi
    · exact hstep
    · exact hchain i (by omega)

/-- **A text with a long chain of references is never resolved**: if it refers to the first of so
many names, one more than there are passes, of which each refers to the next one, or to a name from
which a cycle can be reached, then resolving it fails, whatever else is in the text or in the
entries. -/
theorem interpolate_of_long_chain (key text : String) (lookup : Mapping)
    (h : (∃ chain : Nat → String, chain 0 ∈ references text ∧
          ∀ i < maxPasses, RefersTo lookup (chain i) (chain (i + 1))) ∨
        ∃ first ∈ references text, ∃ name, Relation.ReflTransGen (RefersTo lookup) first name ∧
          Relation.TransGen (RefersTo lookup) name name) :
    ∃ e, interpolate key text lookup = .error e ∧ IsReferenceError key e := by
  obtain ⟨chain, hstart, hchain⟩ : ∃ chain : Nat → String, chain 0 ∈ references text ∧
      ∀ i < maxPasses, RefersTo lookup (chain i) (chain (i + 1)) := by
    rcases h with h | ⟨first, hfirst, name, hreach, hcycle⟩
    · exact h
    · obtain ⟨chain, rfl, hchain⟩ := exists_chain_of_cycle hreach hcycle maxPasses
      exact ⟨chain, hfirst, hchain⟩
  obtain ⟨e, he, herror⟩ := interpolateChars_of_chain hchain hstart
  exact ⟨e, by rw [interpolate_eq, he]; rfl, herror⟩

/-- Eleven names in a chain, of which the last one stands for nothing and would have been dropped by
one more pass; and a cycle of two beside a reference that only arises when `$` and `(b)` meet. -/
theorem interpolate_of_long_chain_of_eleven :
    let chain : Nat → String := fun i =>
      ["a", "b", "c", "d", "e", "f", "g", "h", "i", "j", "k"].getD i ""
    let long : Mapping := [("a", .string "$(b)"), ("b", .string "($(c)"), ("c", .string "$(d)$(z)"),
      ("d", .string "$(e)"), ("e", .string "$(f)"), ("f", .string "$(g)"), ("g", .string "$(h)"),
      ("h", .string "$(i)"), ("i", .string "$(j)"), ("j", .string "$(k))")]
    let cyclic : Mapping := [("b", .string "-"), ("c", .string "$$(d)"), ("d", .string "$(c))"),
      ("x", .string "$"), ("y", .string "(b)")]
    (chain 0 ∈ references "$(a)$(z)" ∧
      (∀ i < maxPasses, RefersTo long (chain i) (chain (i + 1))) ∧
      ∃ e, interpolate "key" "$(a)$(z)" long = .error e ∧ IsReferenceError "key" e) ∧
    "c" ∈ references "$(x)$(y)$(c)" ∧ Relation.TransGen (RefersTo cyclic) "c" "c" ∧
      ∃ e, interpolate "key" "$(x)$(y)$(c)" cyclic = .error e ∧ IsReferenceError "key" e := by
  intro chain long cyclic
  have hstart : chain 0 ∈ references "$(a)$(z)" := by decide
  have hchain : ∀ i < maxPasses, RefersTo long (chain i) (chain (i + 1)) := by
    intro i hi
    rw [maxPasses] at hi
    interval_cases i <;> exact ⟨_, rfl, by decide⟩
  have hfirst : "c" ∈ references "$(x)$(y)$(c)" := by decide
  have hcycle : Relation.TransGen (RefersTo cyclic) "c" "c" :=
    .tail (b := "d") (.single ⟨_, rfl, by decide⟩) ⟨_, rfl, by decide⟩
  exact ⟨⟨hstart, hchain, interpolate_of_long_chain _ _ _ (.inl ⟨chain, hstart, hchain⟩)⟩,
    hfirst, hcycle, interpolate_of_long_chain _ _ _ (.inr ⟨"c", hfirst, "c", .refl, hcycle⟩)⟩

end Template

end PipelineConfig
