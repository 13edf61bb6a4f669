import PipelineConfig.Text.Blank

/-!
# Texts cut at a separator

A text is cut into segments wherever a separator stands in it
(`PipelineConfig.Text.splitChars`), or in two parts where it stands first
(`PipelineConfig.Text.cut?`). Segments are those of the core library
(`PipelineConfig.Text.splitChars_eq_splitOn`), so what is known of `List.splitOn` carries over.

This is how lines, paths and the names on the path of an alias are told apart. What matters in all
three is when nothing is cut: a text is one segment if and only if the separator is not in it. And in a
path it matters that a name is one of the segments (`PipelineConfig.Text.mem_splitChars_iff`), and not
only a part of one.
-/

namespace PipelineConfig

namespace Text

variable (sep : Char)

theorem splitChars_eq_splitOn (cs : List Char) : splitChars sep cs = cs.splitOn sep := by
  induction cs with
  | nil => rfl
  | cons c cs ih =>
    rw [splitChars, ih, List.splitOn_cons_eq_if_modifyHead]
    simp only [beq_iff_eq]
    split
    · rfl
    · rcases hsegments : cs.splitOn sep with _ | ⟨segment, segments⟩
      · exact absurd hsegments (List.splitOn_ne_nil sep cs)
      · rfl

/-- A text is one segment if and only if it has no separator, and then it is the segment. -/
theorem splitChars_eq_singleton_iff {cs segment : List Char} :
    splitChars sep cs = [segment] ↔ sep ∉ cs ∧ cs = segment := by
  rw [splitChars_eq_splitOn]
  constructor
  · intro h
    have hnone : sep ∉ cs := by
      intro hmem
      obtain ⟨before, after, rfl⟩ := List.append_of_mem hmem
      rw [List.splitOn_append_cons_self, List.append_eq_singleton_iff] at h
      rcases h with ⟨hbefore, -⟩ | ⟨-, hafter⟩
      · exact List.splitOn_ne_nil sep before hbefore
      · exact List.splitOn_ne_nil sep after hafter
    rw [List.splitOn_eq_singleton hnone, List.singleton_inj] at h
    exact ⟨hnone, h⟩
  · rintro ⟨hnone, rfl⟩
    exact List.splitOn_eq_singleton hnone

/-- **A segment of a text**: it has no separator in it, and on either side of it stands a separator or the
end of the text. -/
def IsSegment (segment cs : List Char) : Prop :=
  sep ∉ segment ∧ ∃ before after, cs = before ++ segment ++ after ∧
    (before = [] ∨ ∃ start, before = start ++ [sep]) ∧ (after = [] ∨ ∃ rest, after = sep :: rest)

theorem mem_splitOn_append_cons {segment before after : List Char} :
    segment ∈ (before ++ sep :: after).splitOn sep ↔
      segment ∈ before.splitOn sep ∨ segment ∈ after.splitOn sep := by
  rw [List.splitOn_append_cons_self, List.mem_append]

theorem isSegment_of_mem_splitOn {segment cs : List Char} (h : segment ∈ cs.splitOn sep) :
    IsSegment sep segment cs := by
  -- the separator that stands first cuts off one segment, and what is behind it is shorter
  induction hlength : cs.length using Nat.strongRecOn generalizing cs with
  | _ n ih =>
    by_cases hsep : sep ∈ cs
    · obtain ⟨first, rest, rfl, hfirst⟩ := List.eq_append_cons_of_mem hsep
      rcases (mem_splitOn_append_cons sep).mp h with h | h
      · rw [List.splitOn_eq_singleton hfirst, List.mem_singleton] at h
        subst h
        exact ⟨hfirst, [], sep :: rest, rfl, .inl rfl, .inr ⟨rest, rfl⟩⟩
      · have hshorter : rest.length < n := by
          rw [← hlength, List.length_append, List.length_cons]
          omega
        obtain ⟨hnone, before, after, rfl, hbefore, hafter⟩ := ih _ hshorter h rfl
        refine ⟨hnone, first ++ sep :: before, after, by simp, .inr ?_, hafter⟩
        rcases hbefore with rfl | ⟨start, rfl⟩
        · exact ⟨first, rfl⟩
        · exact ⟨first ++ sep :: start, by simp⟩
    · rw [List.splitOn_eq_singleton hsep, List.mem_singleton] at h
      subst h
      exact ⟨hsep, [], [], by simp, .inl rfl, .inl rfl⟩

/-- **What a text is cut into** are its segments. -/
theorem mem_splitChars_iff {segment cs : List Char} :
    segment ∈ splitChars sep cs ↔ IsSegment sep segment cs := by
  rw [splitChars_eq_splitOn]
  constructor
  · exact isSegment_of_mem_splitOn sep
  · rintro ⟨hnone, before, after, rfl, hbefore, hafter⟩
    have hbehind : segment ∈ (segment ++ after).splitOn sep := by
      have hself : segment ∈ segment.splitOn sep := by simp [List.splitOn_eq_singleton hnone]
      rcases hafter with rfl | ⟨rest, rfl⟩
      · rwa [List.append_nil]
      · exact (mem_splitOn_append_cons sep).mpr (.inl hself)
    rw [List.append_assoc]
    rcases hbefore with rfl | ⟨start, rfl⟩
    · exact hbehind
    · rw [List.append_assoc, List.singleton_append]
      exact (mem_splitOn_append_cons sep).mpr (.inr hbehind)

/-- Texts that have been joined with slashes come apart again, if they have none in them. -/
theorem splitChars_intercalate {texts : List String} (hne : texts ≠ [])
    (h : ∀ text ∈ texts, '/' ∉ text.toList) :
    splitChars '/' ("/".intercalate texts).toList = texts.map String.toList := by
  have hslash : ∀ cs ∈ texts.map String.toList, '/' ∉ cs := by
    intro cs hcs
    obtain ⟨text, htext, rfl⟩ := List.mem_map.mp hcs
    exact h text htext
  have hchars : ("/".intercalate texts).toList = ['/'].intercalate (texts.map String.toList) :=
    String.toList_intercalate
  rw [splitChars_eq_splitOn, hchars, List.splitOn_intercalate '/' hslash (by simpa using hne)]

theorem splitOn_intercalate {texts : List String} (hne : texts ≠ [])
    (h : ∀ text ∈ texts, '/' ∉ text.toList) : splitOn '/' ("/".intercalate texts) = texts := by
  rw [splitOn, splitChars_intercalate hne h, List.map_map]
  exact List.map_id'' (fun _ => String.ofList_toList) texts

/-- What has no separator in it lies on one side of each. -/
theorem isInfix_append_cons {l before after : List Char} (hsep : sep ∉ l)
    (h : l <:+: before ++ sep :: after) : l <:+: before ∨ l <:+: after := by
  obtain ⟨start, rest, h⟩ := h
  rw [List.append_assoc, List.append_eq_append_iff] at h
  rcases h with ⟨m, hbefore, h⟩ | ⟨m, -, h⟩
  · rw [List.append_eq_append_iff] at h
    rcases h with ⟨m', rfl, -⟩ | ⟨m', rfl, h⟩
    · exact .inl ⟨start, m', by rw [hbefore, List.append_assoc]⟩
    · -- the separator would be the first character of the second part
      rcases m' with _ | ⟨c, m'⟩
      · exact .inl ⟨start, [], by rw [hbefore, List.append_nil, List.append_nil]⟩
      · obtain rfl : sep = c := (List.cons.inj h).1
        exact absurd (by simp) hsep
  · rcases m with _ | ⟨c, m⟩
    · rcases l with _ | ⟨c, l⟩
      · exact .inl List.nil_infix
      · obtain rfl : sep = c := (List.cons.inj h).1
        exact absurd List.mem_cons_self hsep
    · have hafter : after = m ++ (l ++ rest) := (List.cons.inj h).2
      exact .inr ⟨m, rest, by rw [hafter, List.append_assoc]⟩

/-- A text is cut at the first occurrence of a character, so it comes apart where it has been put
together if and only if the character does not occur before. -/
theorem cut?_append_cons_eq_some_iff (before after : List Char) :
    cut? sep (before ++ sep :: after) = some (before, after) ↔ sep ∉ before := by
  induction before with
  | nil => simp [cut?]
  | cons c before ih =>
    rw [List.cons_append, cut?, List.mem_cons, not_or, ← ih]
    split
    · rename_i h
      simp [h]
    · rename_i h
      simp [Ne.symm h, Prod.ext_iff]

end Text

end PipelineConfig
