import Mathlib.Data.List.Infix
import PipelineConfig.Proofs.Pieces
import PipelineConfig.Proofs.Segments
import PipelineConfig.Secret.Path

/-!
# Paths of secrets

A path of a secret is brought into one form before it is used: without blanks at its ends, and without
empty segments (`PipelineConfig.SecretPath.normalize`). What is left of it are its segments, in order
(`PipelineConfig.SecretPath.segments`), and what is put in their place is nothing. So a text without a
slash that can be found in the path as it is used could be found in the path as it was written
(`PipelineConfig.SecretPath.isInfix_of_isInfix_normalize`).

A path may be written in several ways, with more or less slashes in it
(`PipelineConfig.SecretPath.Writes`). If there are no blanks in its segments, each of them is brought into
the same form (`PipelineConfig.SecretPath.Writes.normalize_eq`).
-/

namespace PipelineConfig

/-- What is not empty and is found in joined texts without their separator, is found in one of them. -/
theorem Text.exists_isInfix_of_isInfix_intercalate {sep : Char} {l : List Char}
    {texts : List (List Char)} (hsep : sep ∉ l) (hne : l ≠ []) (h : l <:+: [sep].intercalate texts) :
    ∃ text ∈ texts, l <:+: text := by
  induction texts with
  | nil => exact absurd (List.infix_nil.mp h) hne
  | cons text texts ih =>
    rcases texts with _ | ⟨next, texts⟩
    · exact ⟨text, List.mem_cons_self, by simpa using h⟩
    rw [List.intercalate_cons_cons, List.append_assoc, List.singleton_append] at h
    rcases Text.isInfix_append_cons sep hsep h with hfirst | hrest
    · exact ⟨text, List.mem_cons_self, hfirst⟩
    · obtain ⟨other, hother, hin⟩ := ih hrest
      exact ⟨other, List.mem_cons_of_mem _ hother, hin⟩

namespace SecretPath

variable {cs l : List Char} {path : String}

/-- The segments of a path: what stands between its slashes, without the empty ones. -/
def segments (cs : List Char) : List (List Char) :=
  (cs.splitOn '/').filter (fun segment => segment ≠ [])

theorem segments_eq_pieces (cs : List Char) : segments cs = Text.pieces (· == '/') cs := rfl

theorem segments_append_cons (cs ds : List Char) : segments (cs ++ '/' :: ds) = segments cs ++ segments ds :=
  Text.pieces_append_cons rfl cs ds

theorem of_mem_segments {segment : List Char} (h : segment ∈ segments cs) :
    segment ≠ [] ∧ '/' ∉ segment ∧ segment <:+: cs := by
  obtain ⟨hmem, hne⟩ := List.mem_filter.mp h
  obtain ⟨hslash, before, after, hcs, -, -⟩ := Text.isSegment_of_mem_splitOn '/' hmem
  exact ⟨by simpa using hne, hslash, ⟨before, after, hcs.symm⟩⟩

/-- Whatever a path has beside its segments are slashes. -/
theorem eq_slash_or_mem_segments {cs : List Char} {c : Char} (hc : c ∈ cs) :
    c = '/' ∨ ∃ segment ∈ segments cs, c ∈ segment := by
  by_cases hslash : c = '/'
  · exact .inl hslash
  · have hin : [c] <:+: ['/'].intercalate (cs.splitOn '/') := by
      rw [List.intercalate_splitOn, List.singleton_infix_iff]
      exact hc
    obtain ⟨segment, hsegment, hinfix⟩ := Text.exists_isInfix_of_isInfix_intercalate
      (by simpa using Ne.symm hslash) (List.cons_ne_nil c []) hin
    rw [List.singleton_infix_iff] at hinfix
    refine .inr ⟨segment, List.mem_filter.mpr ⟨hsegment, ?_⟩, hinfix⟩
    simpa using List.ne_nil_of_mem hinfix

/-- **A normal path** is put together from the segments of the path without the blanks around it. -/
theorem toList_normalize (path : String) :
    (normalize path).toList = ['/'].intercalate (segments (Text.trimChars path.toList)) := by
  have hsegments : ((Text.splitOn '/' (Text.trim path)).filter (fun segment => !segment.isEmpty)).map
      String.toList = segments (Text.trimChars path.toList) := by
    rw [Text.splitOn, Text.trim, String.toList_ofList, Text.splitChars_eq_splitOn, List.filter_map,
      List.map_map, segments]
    simp only [Function.comp_def, String.toList_ofList, List.map_id']
    refine List.filter_congr fun segment _ => ?_
    rw [Bool.eq_iff_iff]
    simp
  rw [normalize, String.toList_intercalate, hsegments]
  rfl

/-- **A normal path has nothing in it that the path has not**, as far as no slash is concerned. -/
theorem isInfix_of_isInfix_normalize (hslash : '/' ∉ l) (hne : l ≠ [])
    (h : l <:+: (normalize path).toList) : l <:+: path.toList := by
  rw [toList_normalize] at h
  obtain ⟨segment, hsegment, hin⟩ := Text.exists_isInfix_of_isInfix_intercalate hslash hne h
  exact (hin.trans (of_mem_segments hsegment).2.2).trans (Text.strip_isInfix _ path.toList)

/-! ### Ways to write a path -/

/-- A segment that is solid: it has some characters, and neither a slash nor a blank is among them. -/
structure Solid (name : String) : Prop where
  ne_empty : name ≠ ""
  slash_notMem : '/' ∉ name.toList
  no_blank : ∀ c ∈ name.toList, Text.isBlank c = false

instance (name : String) : Decidable (Solid name) :=
  -- along the name: an instance for the quantifier itself might go through all characters there are
  decidable_of_iff (name ≠ "" ∧ '/' ∉ name.toList ∧ name.toList.all (!Text.isBlank ·) = true)
    ⟨fun ⟨h, h', h''⟩ => ⟨h, h', fun c hc => by simpa using List.all_eq_true.mp h'' c hc⟩,
      fun h => ⟨h.1, h.2, List.all_eq_true.mpr fun c hc => by simpa using h.3 c hc⟩⟩

/-- A path is written with some segments: they are what stands between its slashes, as far as something
does. -/
def Writes (path : String) (names : List String) : Prop :=
  segments path.toList = names.map String.toList

variable {path' : String} {names names' : List String}

theorem toList_append_slash (path path' : String) :
    (path ++ "/" ++ path').toList = path.toList ++ '/' :: path'.toList := by
  rw [String.toList_append, String.toList_append, List.append_assoc]
  rfl

theorem Writes.append (h : Writes path names) (h' : Writes path' names') :
    Writes (path ++ "/" ++ path') (names ++ names') := by
  rw [Writes] at *
  rw [toList_append_slash, segments_append_cons, h, h', List.map_append]

theorem writes_empty : Writes "" [] := by
  rw [Writes, segments_eq_pieces]
  rfl

theorem writes_intercalate (h : ∀ name ∈ names, Solid name) : Writes ("/".intercalate names) names := by
  have hchars : ("/".intercalate names).toList = ['/'].intercalate (names.map String.toList) :=
    String.toList_intercalate
  rw [Writes, segments_eq_pieces, hchars]
  refine Text.pieces_intercalate rfl fun cs hcs => ?_
  obtain ⟨name, hname, rfl⟩ := List.mem_map.mp hcs
  have hsolid := h name hname
  refine ⟨by simpa using hsolid.ne_empty, fun c hc => beq_eq_false_iff_ne.mpr ?_⟩
  rintro rfl
  exact hsolid.slash_notMem hc

/-- A path with solid segments has no blanks in it. -/
theorem Writes.no_blank (h : Writes path names) (hsolid : ∀ name ∈ names, Solid name) :
    ∀ c ∈ path.toList, Text.isBlank c = false := by
  intro c hc
  rcases eq_slash_or_mem_segments hc with rfl | ⟨segment, hsegment, hmem⟩
  · decide
  · rw [h] at hsegment
    obtain ⟨name, hname, rfl⟩ := List.mem_map.mp hsegment
    exact (hsolid name hname).no_blank c hmem

/-- **A path with solid segments** is brought into the form in which they are joined. -/
theorem Writes.normalize_eq (h : Writes path names) (hsolid : ∀ name ∈ names, Solid name) :
    normalize path = "/".intercalate names := by
  have htrim : Text.trimChars path.toList = path.toList :=
    Text.strip_eq_self_iff.mpr (Text.bare_of_forall (h.no_blank hsolid))
  rw [← String.toList_inj, toList_normalize, htrim, h, String.toList_intercalate]
  rfl

end SecretPath

end PipelineConfig
