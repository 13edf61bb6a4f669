import Mathlib.Data.List.TakeWhile
import PipelineConfig.Proofs.Interpolation

/-!
# References, where they are written

`PipelineConfig.Template.pieces` walks a text from the left, and what it takes for a reference is
settled by what came before. This file shows that nothing is lost by that: a text refers to a name
exactly if the reference is written somewhere in it (`PipelineConfig.Template.mem_names_iff`). The
reason is that only the first character of a reference is a dollar sign, so no two references
overlap. Text that is put around some characters may add references, it never takes one away
(`PipelineConfig.Template.mem_names_append`).

Statements about texts are proved along their pieces (`PipelineConfig.Template.pieces_induction`):
a text is empty, or it begins with a character that begins no reference, or with a reference as it
is written. For each of the three there is one equation for `PipelineConfig.Template.names` and one
for `PipelineConfig.Template.substitute`, and nothing else is used of either.

A pass over a text without references leaves it alone, so that a pass may always be counted off
(`PipelineConfig.Template.interpolateChars_succ`).
-/

namespace PipelineConfig

namespace Template

/-! ### References as they are written -/

/-- The text of a reference. -/
def written (name : List Char) : List Char :=
  '$' :: '(' :: (name ++ [')'])

/-- Whether a reference can have some characters as its name. -/
def IsName (name : List Char) : Prop :=
  ∀ c ∈ name, isNameChar c = true

theorem IsName.dollar_notMem {name : List Char} (h : IsName name) : '$' ∉ name :=
  fun hmem => absurd (h _ hmem) (by decide)

theorem written_append (name rest : List Char) :
    written name ++ rest = '$' :: '(' :: (name ++ ')' :: rest) := by
  simp [written]

theorem reference?_written {name : List Char} (h : IsName name) (rest : List Char) :
    reference? (written name ++ rest) = some name := by
  have hdrop : (name ++ ')' :: rest).dropWhile isNameChar = ')' :: rest := by
    rw [List.dropWhile_append_of_pos h, List.dropWhile_cons_of_neg (by decide)]
  have htake : (name ++ ')' :: rest).takeWhile isNameChar = name := by
    rw [List.takeWhile_append_of_pos h, List.takeWhile_cons_of_neg (by decide), List.append_nil]
  simp only [written_append, reference?, hdrop, htake]

/-- A text begins with a reference only if it begins as one is written. -/
theorem eq_written_of_reference? {cs name : List Char} (h : reference? cs = some name) :
    IsName name ∧ ∃ rest, cs = written name ++ rest := by
  unfold reference? at h
  split at h
  · next rest =>
    split at h
    · next after hdrop =>
      obtain rfl := Option.some.inj h
      refine ⟨fun c hc => List.mem_takeWhile_imp hc, after, ?_⟩
      rw [written_append, ← hdrop, List.takeWhile_append_dropWhile]
    · cases h
  · cases h

theorem reference?_cons_of_ne {c : Char} (h : c ≠ '$') (cs : List Char) :
    reference? (c :: cs) = none := by
  unfold reference?
  split
  · next heq => exact absurd (List.cons.inj heq).1 h
  · rfl

theorem written_append_inj {name name' rest rest' : List Char} (h : IsName name)
    (h' : IsName name') (heq : written name ++ rest = written name' ++ rest') :
    name = name' ∧ rest = rest' := by
  have hname : name = name' := by
    have hread := congrArg reference? heq
    rw [reference?_written h, reference?_written h'] at hread
    exact Option.some.inj hread
  subst hname
  exact ⟨rfl, List.append_cancel_left heq⟩

/-- There is no dollar sign inside a reference. -/
theorem eq_nil_of_written_eq {name before after : List Char} (h : IsName name)
    (heq : written name = before ++ '$' :: after) : before = [] := by
  rcases before with _ | ⟨c, before⟩
  · rfl
  · have hmem : '$' ∈ '(' :: (name ++ [')']) := by
      rw [(List.cons.inj heq).2]
      simp
    exact absurd (by simpa using hmem) h.dollar_notMem

/-! ### Pieces, one by one -/

theorem piecesFrom_append (passed cs : List Char) :
    piecesFrom passed.length (passed ++ cs) = pieces cs := by
  induction passed with
  | nil => rfl
  | cons c passed ih => exact ih

theorem pieces_written {name : List Char} (h : IsName name) (cs : List Char) :
    pieces (written name ++ cs) = .reference (String.ofList name) :: pieces cs := by
  have hpass : piecesFrom (name.length + 2) ('(' :: (name ++ ')' :: cs)) = pieces cs := by
    simpa using piecesFrom_append ('(' :: (name ++ [')'])) cs
  have href := reference?_written h cs
  rw [written_append] at href ⊢
  rw [pieces, piecesFrom, href]
  exact congrArg _ hpass

theorem pieces_cons {c : Char} {cs : List Char} (h : reference? (c :: cs) = none) :
    pieces (c :: cs) = .char c :: pieces cs := by
  rw [pieces, piecesFrom, h]
  rfl

/-- **Induction along the pieces of a text.** -/
@[elab_as_elim]
theorem pieces_induction {motive : List Char → Prop} (nil : motive [])
    (char : ∀ c cs, reference? (c :: cs) = none → motive cs → motive (c :: cs))
    (reference : ∀ name cs, IsName name → motive cs → motive (written name ++ cs))
    (cs : List Char) : motive cs := by
  induction hn : cs.length using Nat.strong_induction_on generalizing cs with
  | _ n ih =>
    subst hn
    rcases cs with _ | ⟨c, cs⟩
    · exact nil
    cases href : reference? (c :: cs) with
    | none => exact char c cs href (ih _ (by simp) cs rfl)
    | some name =>
      obtain ⟨hname, rest, heq⟩ := eq_written_of_reference? href
      rw [heq]
      refine reference name rest hname (ih _ ?_ rest rfl)
      rw [heq, List.length_append]
      simp [written]

@[simp] theorem names_nil : names [] = [] := rfl

theorem names_cons {c : Char} {cs : List Char} (h : reference? (c :: cs) = none) :
    names (c :: cs) = names cs := by
  simp [names, pieces_cons h]

theorem names_written {name : List Char} (h : IsName name) (cs : List Char) :
    names (written name ++ cs) = String.ofList name :: names cs := by
  simp [names, pieces_written h]

/-! ### Where references are -/

theorem exists_written_of_mem_names {name : String} {cs : List Char} (h : name ∈ names cs) :
    IsName name.toList ∧ ∃ before after, cs = before ++ written name.toList ++ after := by
  induction cs using pieces_induction with
  | nil => simp at h
  | char c cs hc ih =>
    rw [names_cons hc] at h
    obtain ⟨hname, before, after, rfl⟩ := ih h
    exact ⟨hname, c :: before, after, rfl⟩
  | reference other cs hother ih =>
    rw [names_written hother, List.mem_cons] at h
    rcases h with rfl | h
    · rw [String.toList_ofList]
      exact ⟨hother, [], cs, rfl⟩
    · obtain ⟨hname, before, after, rfl⟩ := ih h
      exact ⟨hname, written other ++ before, after, by simp⟩

theorem mem_names_of_written {name : String} (hname : IsName name.toList)
    (before after : List Char) : name ∈ names (before ++ written name.toList ++ after) := by
  generalize hcs : before ++ written name.toList ++ after = cs
  induction cs using pieces_induction generalizing before with
  | nil => simp [written] at hcs
  | char c cs hc ih =>
    rw [names_cons hc]
    rcases before with _ | ⟨d, before⟩
    · rw [List.nil_append] at hcs
      rw [← hcs, reference?_written hname] at hc
      cases hc
    · exact ih before (List.cons.inj hcs).2
  | reference other cs hother ih =>
    rw [names_written hother, List.mem_cons]
    rw [List.append_assoc, List.append_eq_append_iff] at hcs
    rcases hcs with ⟨inside, hsplit, hrest⟩ | ⟨before', rfl, hrest⟩
    · rcases inside with _ | ⟨d, inside⟩
      · exact .inr (ih [] hrest)
      · -- the other reference would have a dollar sign inside, unless the two are one
        obtain rfl : '$' = d := (List.cons.inj hrest).1
        obtain rfl := eq_nil_of_written_eq hother hsplit
        have heq : written name.toList ++ after = written other ++ cs := by
          rw [hsplit]
          exact hrest
        left
        rw [← (written_append_inj hname hother heq).1, String.ofList_toList]
    · exact .inr (ih before' (by rw [List.append_assoc, ← hrest]))

/-- **A text refers to a name exactly if the reference is written in it**, wherever that is. -/
theorem mem_names_iff {name : String} {cs : List Char} :
    name ∈ names cs
      ↔ IsName name.toList ∧ ∃ before after, cs = before ++ written name.toList ++ after := by
  constructor
  · exact exists_written_of_mem_names
  · rintro ⟨hname, before, after, rfl⟩
    exact mem_names_of_written hname before after

/-- Text around some characters takes no reference from them. -/
theorem mem_names_append {name : String} {cs : List Char} (h : name ∈ names cs)
    (before after : List Char) : name ∈ names (before ++ cs ++ after) := by
  obtain ⟨hname, inner, outer, rfl⟩ := mem_names_iff.mp h
  exact mem_names_iff.mpr ⟨hname, before ++ inner, outer ++ after, by simp⟩

/-! ### One pass -/

/-- The text that a reference stands for, whatever text it is in. -/
def textOf? (lookup : Mapping) (name : String) : Option (List Char) :=
  match Assoc.get? lookup name with
  | some (.string s) => some s.toList
  | none | some .null => some []
  | some _ => none

variable {lookup : Mapping} {key : String}

theorem textOf?_eq_some_iff (key : String) {name : String} {text : List Char} :
    textOf? lookup name = some text ↔ valueOf key lookup name = .ok text := by
  unfold textOf? valueOf
  rcases Assoc.get? lookup name with _ | v
  · simp [eq_comm]
  · cases v <;> simp [eq_comm]

theorem substitute_cons {c : Char} {cs : List Char} (h : reference? (c :: cs) = none) :
    substitute key lookup (c :: cs) = (substitute key lookup cs).map (c :: ·) := by
  rw [substitute, pieces_cons h, substitutePieces, substitute]
  cases substitutePieces key lookup (pieces cs) <;> rfl

theorem substitute_written {name : List Char} (h : IsName name) (cs : List Char) :
    substitute key lookup (written name ++ cs)
      = (valueOf key lookup (String.ofList name)).bind
          (fun text => (substitute key lookup cs).map (text ++ ·)) := by
  rw [substitute, pieces_written h, substitutePieces, substitute]
  cases valueOf key lookup (String.ofList name) with
  | error e => rfl
  | ok text => cases substitutePieces key lookup (pieces cs) <;> rfl

theorem substitute_cons_eq_ok_iff {c : Char} {cs ds : List Char}
    (h : reference? (c :: cs) = none) :
    substitute key lookup (c :: cs) = .ok ds
      ↔ ∃ rest, substitute key lookup cs = .ok rest ∧ c :: rest = ds := by
  rw [substitute_cons h, map_eq_ok_iff]

theorem substitute_written_eq_ok_iff {name : List Char} (h : IsName name) {cs ds : List Char} :
    substitute key lookup (written name ++ cs) = .ok ds
      ↔ ∃ text rest, textOf? lookup (String.ofList name) = some text ∧
          substitute key lookup cs = .ok rest ∧ text ++ rest = ds := by
  rw [substitute_written h]
  simp only [textOf?_eq_some_iff key]
  cases valueOf key lookup (String.ofList name) with
  | error e => simp [Except.bind]
  | ok text =>
    change (substitute key lookup cs).map (text ++ ·) = .ok ds ↔ _
    rw [map_eq_ok_iff]
    constructor
    · rintro ⟨rest, hrest, heq⟩
      exact ⟨text, rest, rfl, hrest, heq⟩
    · rintro ⟨_, rest, htext, hrest, heq⟩
      obtain rfl := Except.ok.inj htext
      exact ⟨rest, hrest, heq⟩

/-- A text without references is left alone. -/
theorem substitute_of_names_nil {cs : List Char} (h : names cs = []) :
    substitute key lookup cs = .ok cs := by
  induction cs using pieces_induction with
  | nil => rfl
  | char c cs hc ih =>
    rw [names_cons hc] at h
    exact (substitute_cons_eq_ok_iff hc).mpr ⟨cs, ih h, rfl⟩
  | reference name cs hname ih =>
    rw [names_written hname] at h
    cases h

/-- A pass succeeds if all references stand for texts. -/
theorem exists_substitute {cs : List Char}
    (h : ∀ name ∈ names cs, ∃ text, textOf? lookup name = some text) :
    ∃ ds, substitute key lookup cs = .ok ds := by
  induction cs using pieces_induction with
  | nil => exact ⟨[], rfl⟩
  | char c cs hc ih =>
    rw [names_cons hc] at h
    obtain ⟨ds, hds⟩ := ih h
    exact ⟨c :: ds, (substitute_cons_eq_ok_iff hc).mpr ⟨ds, hds, rfl⟩⟩
  | reference name cs hname ih =>
    rw [names_written hname, List.forall_mem_cons] at h
    obtain ⟨⟨text, htext⟩, hrest⟩ := h
    obtain ⟨ds, hds⟩ := ih hrest
    exact ⟨text ++ ds, (substitute_written_eq_ok_iff hname).mpr ⟨text, ds, htext, hds, rfl⟩⟩

/-- What a reference stands for is in the text after a pass. -/
theorem exists_textOf_of_mem_names {cs ds : List Char} (h : substitute key lookup cs = .ok ds)
    {name : String} (hname : name ∈ names cs) :
    ∃ text before after, textOf? lookup name = some text ∧ ds = before ++ text ++ after := by
  induction cs using pieces_induction generalizing ds with
  | nil => simp at hname
  | char c cs hc ih =>
    rw [names_cons hc] at hname
    obtain ⟨rest, hrest, rfl⟩ := (substitute_cons_eq_ok_iff hc).mp h
    obtain ⟨text, before, after, htext, rfl⟩ := ih hrest hname
    exact ⟨text, c :: before, after, htext, rfl⟩
  | reference other cs hother ih =>
    rw [names_written hother, List.mem_cons] at hname
    obtain ⟨text, rest, htext, hrest, rfl⟩ := (substitute_written_eq_ok_iff hother).mp h
    rcases hname with rfl | hname
    · exact ⟨text, [], rest, htext, by simp⟩
    · obtain ⟨inner, before, after, hinner, rfl⟩ := ih hrest hname
      exact ⟨inner, text ++ before, after, hinner, by simp⟩

theorem error_of_valueOf {name : String} {e : ConfigError}
    (h : valueOf key lookup name = .error e) : ∃ kind, e = .referenceNotText name key kind := by
  unfold valueOf at h
  split at h
  · cases h
  · cases h
  · cases h
  · exact ⟨_, (Except.error.inj h).symm⟩

/-- A pass fails only at a reference to what is no text. -/
theorem error_of_substitute {cs : List Char} {e : ConfigError}
    (h : substitute key lookup cs = .error e) :
    ∃ name kind, e = .referenceNotText name key kind := by
  induction cs using pieces_induction with
  | nil => cases h
  | char c cs hc ih =>
    rw [substitute_cons hc] at h
    cases hrest : substitute key lookup cs with
    | error e' =>
      rw [hrest] at h
      obtain rfl := Except.error.inj h
      exact ih hrest
    | ok rest =>
      rw [hrest] at h
      cases h
  | reference other cs hother ih =>
    rw [substitute_written hother] at h
    cases hvalue : valueOf key lookup (String.ofList other) with
    | error e' =>
      rw [hvalue] at h
      obtain rfl := Except.error.inj h
      exact ⟨_, error_of_valueOf hvalue⟩
    | ok text =>
      cases hrest : substitute key lookup cs with
      | error e' =>
        rw [hvalue, hrest] at h
        obtain rfl := Except.error.inj h
        exact ih hrest
      | ok rest =>
        rw [hvalue, hrest] at h
        cases h

/-! ### All passes -/

/-- **A pass may be counted off**, also where no reference is left. -/
theorem interpolateChars_succ (passes : Nat) (cs : List Char) :
    interpolateChars key lookup (passes + 1) cs
      = (substitute key lookup cs).bind (interpolateChars key lookup passes) := by
  by_cases hcs : names cs = []
  · rw [interpolateChars_of_names_nil hcs, substitute_of_names_nil hcs]
    exact (interpolateChars_of_names_nil hcs key lookup passes).symm
  · rw [interpolateChars, if_neg hcs]
    rfl

theorem interpolateChars_succ_eq_ok_iff {passes : Nat} {cs resolved : List Char} :
    interpolateChars key lookup (passes + 1) cs = .ok resolved ↔
      ∃ ds, substitute key lookup cs = .ok ds ∧
        interpolateChars key lookup passes ds = .ok resolved := by
  rw [interpolateChars_succ]
  cases substitute key lookup cs <;> simp [Except.bind]

theorem interpolateChars_zero_eq_ok_iff {cs resolved : List Char} :
    interpolateChars key lookup 0 cs = .ok resolved ↔ names cs = [] ∧ cs = resolved := by
  rw [interpolateChars]
  by_cases hcs : names cs = [] <;> simp [hcs]

/-- A text that can be resolved refers to texts only. -/
theorem exists_textOf_of_interpolateChars {passes : Nat} {cs resolved : List Char}
    (h : interpolateChars key lookup passes cs = .ok resolved) {name : String}
    (hname : name ∈ names cs) : ∃ text, textOf? lookup name = some text := by
  cases passes with
  | zero => simp [(interpolateChars_zero_eq_ok_iff.mp h).1] at hname
  | succ passes =>
    obtain ⟨ds, hds, -⟩ := interpolateChars_succ_eq_ok_iff.mp h
    obtain ⟨text, -, -, htext, -⟩ := exists_textOf_of_mem_names hds hname
    exact ⟨text, htext⟩

end Template

end PipelineConfig
