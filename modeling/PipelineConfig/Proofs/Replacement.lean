import Mathlib.Logic.Relation
import PipelineConfig.Proofs.Assoc
import PipelineConfig.Proofs.References

/-!
# The order of replacements does not matter

A pass replaces all references of a text at once, and what it puts in their place may be resolved
already or not. This file shows that this makes no difference: a text that is resolved against a
mapping is resolved to the same text against the resolved mapping
(`PipelineConfig.Template.interpolate_of_interpolateMapping`), and in no more passes.

References are rewritten here as terms are in a calculus without critical pairs. Since they never
overlap, replacing one neither changes another nor destroys it; all that it may do is to create new
ones, with the text beside it. So let `PipelineConfig.Template.Replaces` be the replacement of *some*
of the references of a text. A pass is the replacement of all of them, and whatever some replacement
has left over, the pass over the original text is reached from there by replacing the rest
(`PipelineConfig.Template.Replaces.triangle`).

* Replacing some references beforehand therefore neither changes what a text is resolved to nor makes
  more passes necessary (`PipelineConfig.Template.interpolateChars_of_replaces`). A reference to what
  is no text cannot show up on the way: nothing would ever remove it.
* Looking up resolved entries is replacing some references and then some of what has come in their
  place (`PipelineConfig.Template.exists_substitute_of_interpolateMapping`).
-/

namespace PipelineConfig

namespace Template

open Relation (ReflTransGen)

/-- **Some references of a text are replaced** by what they stand for, and all else stays as it is. A
reference that is not replaced is passed over character by character. -/
inductive Replaces (lookup : Mapping) : List Char → List Char → Prop
  | nil : Replaces lookup [] []
  | keep {cs ds : List Char} (c : Char) : Replaces lookup cs ds → Replaces lookup (c :: cs) (c :: ds)
  | replace {name text cs ds : List Char} (hname : IsName name)
      (htext : textOf? lookup (String.ofList name) = some text) :
      Replaces lookup cs ds → Replaces lookup (written name ++ cs) (text ++ ds)

variable {lookup : Mapping} {key : String} {cs ds es : List Char}

namespace Replaces

theorem append_left (before : List Char) (h : Replaces lookup cs ds) :
    Replaces lookup (before ++ cs) (before ++ ds) := by
  induction before with
  | nil => exact h
  | cons c before ih => exact ih.keep c

theorem refl (cs : List Char) : Replaces lookup cs cs := by
  simpa using append_left cs (nil : Replaces lookup [] [])

theorem append_right (h : Replaces lookup cs ds) (after : List Char) :
    Replaces lookup (cs ++ after) (ds ++ after) := by
  induction h with
  | nil => exact refl after
  | keep c _ ih => exact ih.keep c
  | replace hname htext _ ih =>
    rw [List.append_assoc, List.append_assoc]
    exact ih.replace hname htext

/-! ### What can have become of the beginning of a text -/

/-- A character that begins no reference stays. -/
theorem cons_inv {c : Char} (hc : reference? (c :: cs) = none) (h : Replaces lookup (c :: cs) ds) :
    ∃ ds', ds = c :: ds' ∧ Replaces lookup cs ds' := by
  generalize hcs : c :: cs = all at h
  cases h with
  | nil => cases hcs
  | keep d hrest =>
    obtain ⟨rfl, rfl⟩ := List.cons.inj hcs
    exact ⟨_, rfl, hrest⟩
  | replace hname =>
    rw [hcs, reference?_written hname] at hc
    cases hc

theorem append_inv {before : List Char} (hbefore : '$' ∉ before)
    (h : Replaces lookup (before ++ cs) ds) :
    ∃ ds', ds = before ++ ds' ∧ Replaces lookup cs ds' := by
  induction before generalizing ds with
  | nil => exact ⟨ds, rfl, h⟩
  | cons c before ih =>
    rw [List.mem_cons, not_or] at hbefore
    obtain ⟨ds', rfl, h'⟩ := cons_inv (reference?_cons_of_ne (Ne.symm hbefore.1) _) h
    obtain ⟨ds'', rfl, h''⟩ := ih hbefore.2 h'
    exact ⟨ds'', rfl, h''⟩

/-- A reference stays as a whole, or what it stands for is in its place. -/
theorem written_inv {name : List Char} (hname : IsName name)
    (h : Replaces lookup (written name ++ cs) ds) :
    (∃ ds', ds = written name ++ ds' ∧ Replaces lookup cs ds') ∨
      ∃ text ds', ds = text ++ ds' ∧ textOf? lookup (String.ofList name) = some text ∧
        Replaces lookup cs ds' := by
  generalize hcs : written name ++ cs = all at h
  cases h with
  | nil => cases hcs
  | keep c hrest =>
    rw [written_append, List.cons.injEq] at hcs
    obtain ⟨rfl, rfl⟩ := hcs
    -- its dollar sign was kept, and nothing begins inside it that could have been replaced
    have hinside : '$' ∉ '(' :: (name ++ [')']) := by simp [hname.dollar_notMem]
    rw [show '(' :: (name ++ ')' :: cs) = '(' :: (name ++ [')']) ++ cs by simp] at hrest
    obtain ⟨ds', rfl, h'⟩ := append_inv hinside hrest
    exact .inl ⟨ds', rfl, h'⟩
  | replace hother htext hrest =>
    obtain ⟨rfl, rfl⟩ := written_append_inj hname hother hcs
    exact .inr ⟨_, _, rfl, htext, hrest⟩

/-- A text without references stays. -/
theorem eq_of_names_nil (h : Replaces lookup cs ds) (hcs : names cs = []) : ds = cs := by
  induction cs using pieces_induction generalizing ds with
  | nil =>
    cases h
    rfl
  | char c cs hc ih =>
    obtain ⟨ds', rfl, h'⟩ := cons_inv hc h
    rw [names_cons hc] at hcs
    rw [ih h' hcs]
  | reference name cs hname ih =>
    rw [names_written hname] at hcs
    cases hcs

/-- A reference to what is no text stays. -/
theorem mem_names (h : Replaces lookup cs ds) {name : String} (hname : name ∈ names cs)
    (htext : textOf? lookup name = none) : name ∈ names ds := by
  induction cs using pieces_induction generalizing ds with
  | nil => simp at hname
  | char c cs hc ih =>
    obtain ⟨ds', rfl, h'⟩ := cons_inv hc h
    rw [names_cons hc] at hname
    simpa using mem_names_append (ih h' hname) [c] []
  | reference other cs hother ih =>
    rw [names_written hother, List.mem_cons] at hname
    rcases written_inv hother h with ⟨ds', rfl, h'⟩ | ⟨text, ds', rfl, hsome, h'⟩
    · rw [names_written hother, List.mem_cons]
      exact hname.imp_right (ih h')
    · rcases hname with rfl | hname
      · rw [htext] at hsome
        cases hsome
      · simpa using mem_names_append (ih h' hname) text []

/-! ### Passes -/

/-- A pass replaces references. -/
theorem of_substitute (h : substitute key lookup cs = .ok ds) : Replaces lookup cs ds := by
  induction cs using pieces_induction generalizing ds with
  | nil =>
    obtain rfl := Except.ok.inj h
    exact .nil
  | char c cs hc ih =>
    obtain ⟨rest, hrest, rfl⟩ := (substitute_cons_eq_ok_iff hc).mp h
    exact (ih hrest).keep c
  | reference name cs hname ih =>
    obtain ⟨text, rest, htext, hrest, rfl⟩ := (substitute_written_eq_ok_iff hname).mp h
    exact (ih hrest).replace hname htext

/-- **Whatever has been replaced, replacing the rest leads to what a pass leads to.** -/
theorem triangle (h : Replaces lookup cs ds) (hes : substitute key lookup cs = .ok es) :
    Replaces lookup ds es := by
  induction cs using pieces_induction generalizing ds es with
  | nil =>
    cases h
    exact of_substitute hes
  | char c cs hc ih =>
    obtain ⟨ds', rfl, h'⟩ := cons_inv hc h
    obtain ⟨rest, hrest, rfl⟩ := (substitute_cons_eq_ok_iff hc).mp hes
    exact (ih h' hrest).keep c
  | reference name cs hname ih =>
    obtain ⟨text, rest, htext, hrest, rfl⟩ := (substitute_written_eq_ok_iff hname).mp hes
    rcases written_inv hname h with ⟨ds', rfl, h'⟩ | ⟨text', ds', rfl, htext', h'⟩
    · exact (ih h' hrest).replace hname htext
    · -- already replaced, by what the pass puts there too
      obtain rfl := Option.some.inj (htext.symm.trans htext')
      exact (ih h' hrest).append_left text

end Replaces

/-- **Replacing some references beforehand changes nothing** about what a text is resolved to, and
takes no more passes. -/
theorem interpolateChars_of_replaces {passes : Nat} {resolved : List Char}
    (hcs : interpolateChars key lookup passes cs = .ok resolved) (h : Replaces lookup cs ds) :
    interpolateChars key lookup passes ds = .ok resolved := by
  induction passes generalizing cs ds with
  | zero =>
    rw [h.eq_of_names_nil (interpolateChars_zero_eq_ok_iff.mp hcs).1]
    exact hcs
  | succ passes ih =>
    obtain ⟨es, hes, hresolved⟩ := interpolateChars_succ_eq_ok_iff.mp hcs
    have hds : Replaces lookup ds es := h.triangle hes
    -- a reference to what is no text would still be there after the pass
    have htexts : ∀ name ∈ names ds, ∃ text, textOf? lookup name = some text := by
      intro name hname
      by_contra hnone
      have hmem := hds.mem_names hname
        (Option.eq_none_iff_forall_ne_some.mpr (not_exists.mp hnone))
      exact hnone (exists_textOf_of_interpolateChars hresolved hmem)
    obtain ⟨fs, hfs⟩ : ∃ fs, substitute key lookup ds = .ok fs := exists_substitute htexts
    exact interpolateChars_succ_eq_ok_iff.mpr ⟨fs, hfs, ih hresolved (hds.triangle hfs)⟩

/-! ### Many replacements in a row -/

theorem interpolateChars_of_reflTransGen {passes : Nat} {resolved : List Char}
    (hcs : interpolateChars key lookup passes cs = .ok resolved)
    (h : ReflTransGen (Replaces lookup) cs ds) :
    interpolateChars key lookup passes ds = .ok resolved := by
  induction h with
  | refl => exact hcs
  | tail _ hstep ih => exact interpolateChars_of_replaces ih hstep

/-- A resolved text has been reached by replacing references. -/
theorem reflTransGen_of_interpolateChars {passes : Nat} {resolved : List Char}
    (h : interpolateChars key lookup passes cs = .ok resolved) :
    ReflTransGen (Replaces lookup) cs resolved := by
  induction passes generalizing cs with
  | zero =>
    obtain ⟨-, rfl⟩ := interpolateChars_zero_eq_ok_iff.mp h
    exact .refl
  | succ passes ih =>
    obtain ⟨ds, hds, hresolved⟩ := interpolateChars_succ_eq_ok_iff.mp h
    exact .head (.of_substitute hds) (ih hresolved)

theorem reflTransGen_append {cs' ds' : List Char} (h : ReflTransGen (Replaces lookup) cs ds)
    (h' : ReflTransGen (Replaces lookup) cs' ds') :
    ReflTransGen (Replaces lookup) (cs ++ cs') (ds ++ ds') :=
  (h.lift (· ++ cs') fun _ _ hstep => hstep.append_right cs').trans
    (h'.lift (ds ++ ·) fun _ _ hstep => hstep.append_left ds)

/-! ### Looking up resolved entries -/

variable {config resolved : Mapping}

/-- What a reference stands for in the resolved mapping is reached from what it stands for in the
mapping itself. -/
theorem exists_textOf_of_interpolateMapping (h : interpolateMapping config = .ok resolved)
    {name : String} {text : List Char} (htext : textOf? config name = some text) :
    ∃ final, textOf? resolved name = some final ∧ ReflTransGen (Replaces config) text final := by
  cases hget : Assoc.get? config name with
  | none =>
    have hnone : Assoc.get? resolved name = none := by
      rw [Assoc.get?_eq_none_iff, keys_interpolateMapping h, ← Assoc.get?_eq_none_iff, hget]
    rw [textOf?, hget] at htext
    rw [textOf?, hnone]
    exact ⟨text, htext, .refl⟩
  | some v =>
    obtain ⟨w, hw, hresolved⟩ := get?_interpolateMapping h hget
    rw [textOf?, hget] at htext
    rw [textOf?, hresolved]
    cases v with
    | null =>
      obtain rfl := Except.ok.inj hw
      exact ⟨text, htext, .refl⟩
    | string s =>
      obtain rfl := Option.some.inj htext
      obtain ⟨s', hs', rfl⟩ := map_eq_ok_iff.mp hw
      exact ⟨s'.toList, rfl, reflTransGen_of_interpolateChars (interpolate_eq_ok_iff.mp hs')⟩
    | _ => cases htext

/-- A pass that looks up resolved entries leads further than one that looks up the entries. -/
theorem exists_substitute_of_interpolateMapping (h : interpolateMapping config = .ok resolved)
    (hds : substitute key config cs = .ok ds) :
    ∃ es, substitute key resolved cs = .ok es ∧ ReflTransGen (Replaces config) ds es := by
  induction cs using pieces_induction generalizing ds with
  | nil =>
    obtain rfl := Except.ok.inj hds
    exact ⟨[], rfl, .refl⟩
  | char c cs hc ih =>
    obtain ⟨rest, hrest, rfl⟩ := (substitute_cons_eq_ok_iff hc).mp hds
    obtain ⟨es, hes, hstar⟩ := ih hrest
    exact ⟨c :: es, (substitute_cons_eq_ok_iff hc).mpr ⟨es, hes, rfl⟩,
      reflTransGen_append (.refl : ReflTransGen _ [c] [c]) hstar⟩
  | reference name cs hname ih =>
    obtain ⟨text, rest, htext, hrest, rfl⟩ := (substitute_written_eq_ok_iff hname).mp hds
    obtain ⟨final, hfinal, htextstar⟩ := exists_textOf_of_interpolateMapping h htext
    obtain ⟨es, hes, hstar⟩ := ih hrest
    exact ⟨final ++ es, (substitute_written_eq_ok_iff hname).mpr ⟨final, es, hfinal, hes, rfl⟩,
      reflTransGen_append htextstar hstar⟩

/-- The passes over the resolved mapping stay ahead of the passes over the mapping. -/
theorem interpolateChars_of_interpolateMapping (h : interpolateMapping config = .ok resolved)
    {passes : Nat} {final : List Char} (hcs : interpolateChars key config passes cs = .ok final) :
    interpolateChars key resolved passes cs = .ok final := by
  induction passes generalizing cs with
  | zero => exact interpolateChars_zero_eq_ok_iff.mpr (interpolateChars_zero_eq_ok_iff.mp hcs)
  | succ passes ih =>
    obtain ⟨ds, hds, hfinal⟩ := interpolateChars_succ_eq_ok_iff.mp hcs
    obtain ⟨es, hes, hstar⟩ := exists_substitute_of_interpolateMapping h hds
    exact interpolateChars_succ_eq_ok_iff.mpr
      ⟨es, hes, ih (interpolateChars_of_reflTransGen hfinal hstar)⟩

/-- **A text is resolved to the same text against a mapping and against the resolved mapping**, also
where replacing brings references about that are written nowhere. -/
theorem interpolate_of_interpolateMapping (h : interpolateMapping config = .ok resolved)
    {key text final : String} (htext : interpolate key text config = .ok final) :
    interpolate key text resolved = .ok final :=
  interpolate_eq_ok_iff.mpr
    (interpolateChars_of_interpolateMapping h (interpolate_eq_ok_iff.mp htext))

/-- `$(a)` and `$(b)` are joined into a reference to `c`, against the mapping in the second pass and
against the resolved mapping in the first one. -/
theorem interpolate_of_interpolateMapping_joined :
    let config : Mapping := [("a", .string "$(e)"), ("b", .string "(c)"), ("c", .string "$(d)!"),
      ("d", .string "done"), ("e", .string "$"), ("n", .int 1)]
    let resolved : Mapping := [("a", .string "$"), ("b", .string "(c)"), ("c", .string "done!"),
      ("d", .string "done"), ("e", .string "$"), ("n", .int 1)]
    interpolateMapping config = .ok resolved ∧
      interpolate "key" "$(a)$(b)$(none)" config = .ok "done!" ∧
      interpolate "key" "$(a)$(b)$(none)" resolved = .ok "done!" := by
  intro config resolved
  have h : interpolateMapping config = .ok resolved := by rfl
  have htext : interpolate "key" "$(a)$(b)$(none)" config = .ok "done!" := by rfl
  exact ⟨h, htext, interpolate_of_interpolateMapping h htext⟩

end Template

end PipelineConfig
