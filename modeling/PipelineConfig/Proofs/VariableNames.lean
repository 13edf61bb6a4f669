import Mathlib
import PipelineConfig.Proofs.Pieces
import PipelineConfig.Proofs.Segments
import PipelineConfig.Secret.Credentials

/-!
# Names of variables

The name of the variable for a key is made in three steps: whatever stands between letters and digits becomes
one underscore, underscores at the ends are dropped, and letters are put in upper case. None of the steps
touches a *run*, a longest piece of letters and digits (`PipelineConfig.Credentials.runs`), except for the
case of its letters. What is left between the runs after the second step is one underscore
(`PipelineConfig.Credentials.Spaced`), so the name is nothing but the runs, joined by underscores
(`PipelineConfig.Credentials.toList_variableName`).

All else follows from that. A name has the runs of its key, so it is its own name; and two keys have the same
name if and only if they have the same runs, as far as the case of letters is left aside.
-/

namespace PipelineConfig

namespace Credentials

variable {cs ds run : List Char} {c : Char}

/-! ### Runs -/

/-- **The runs of a text**: the longest pieces of ASCII letters and digits, in order. -/
def runs (cs : List Char) : List (List Char) :=
  Text.pieces (fun c => !c.isAlphanum) cs

theorem of_mem_runs (h : run ∈ runs cs) : run ≠ [] ∧ ∀ c ∈ run, c.isAlphanum = true := by
  obtain ⟨hne, hrun⟩ := Text.of_mem_pieces h
  exact ⟨hne, fun c hc => by simpa using hrun c hc⟩

/-- A character other than letters and digits ends a run. -/
theorem runs_append_cons (hc : c.isAlphanum = false) (cs ds : List Char) :
    runs (cs ++ c :: ds) = runs cs ++ runs ds :=
  Text.pieces_append_cons (by simp [hc]) cs ds

theorem runs_cons (hc : c.isAlphanum = false) (ds : List Char) : runs (c :: ds) = runs ds :=
  runs_append_cons hc [] ds

/-- Runs that have been joined are the runs again. -/
theorem runs_intercalate {rs : List (List Char)}
    (h : ∀ run ∈ rs, run ≠ [] ∧ ∀ c ∈ run, c.isAlphanum = true) : runs (['_'].intercalate rs) = rs := by
  refine Text.pieces_intercalate rfl fun run hrun => ?_
  obtain ⟨hne, hrun⟩ := h run hrun
  exact ⟨hne, fun c hc => by simp [hrun c hc]⟩

/-! ### Underscores -/

/-- Underscores stand inside of a text only, and one at a time. -/
structure Spaced (cs : List Char) : Prop where
  start : cs.head? ≠ some '_'
  stop : cs.getLast? ≠ some '_'
  single : ¬ ['_', '_'] <:+: cs

/-- That is to say that nothing is empty between underscores. -/
theorem nil_notMem_splitOn (h : Spaced cs) (hne : cs ≠ []) : [] ∉ cs.splitOn '_' := by
  intro hmem
  obtain ⟨-, before, after, hcs, hbefore, hafter⟩ := Text.isSegment_of_mem_splitOn '_' hmem
  rw [List.append_nil] at hcs
  subst hcs
  rcases hbefore with rfl | ⟨start, rfl⟩ <;> rcases hafter with rfl | ⟨rest, rfl⟩
  · exact hne rfl
  · exact h.start rfl
  · exact h.stop (by simp)
  · exact h.single ⟨start, rest, by simp⟩

theorem nil_mem_splitOn_cons (cs : List Char) : [] ∈ ('_' :: cs).splitOn '_' :=
  (@Text.mem_splitOn_append_cons '_' [] [] cs).mpr (.inl (by simp))

theorem spaced_of_nil_notMem_splitOn (h : [] ∉ cs.splitOn '_') : Spaced cs where
  start hstart := by
    obtain ⟨rest, rfl⟩ := List.head?_eq_some_iff.mp hstart
    exact h (nil_mem_splitOn_cons rest)
  stop hstop := by
    obtain ⟨rest, rfl⟩ := List.getLast?_eq_some_iff.mp hstop
    exact h ((Text.mem_splitOn_append_cons '_').mpr (.inr (by simp)))
  single := by
    rintro ⟨before, after, rfl⟩
    rw [List.append_assoc] at h
    exact h ((Text.mem_splitOn_append_cons '_').mpr (.inr (nil_mem_splitOn_cons after)))

/-- **A text of runs with one underscore between them** is its runs, joined. -/
theorem eq_intercalate_runs (h : Spaced cs) (hcs : ∀ c ∈ cs, c.isAlphanum = true ∨ c = '_') :
    cs = ['_'].intercalate (runs cs) := by
  by_cases hne : cs = []
  · rw [hne]
    rfl
  · have hsplit : cs.splitOnP (fun c => !c.isAlphanum) = cs.splitOn '_' := by
      refine Text.splitOnP_congr fun c hc => ?_
      rcases hcs c hc with hrun | rfl
      · have hne : c ≠ '_' := by
          rintro rfl
          cases hrun
        simp [hrun, hne]
      · rfl
    have hruns : runs cs = cs.splitOn '_' := by
      rw [runs, Text.pieces, hsplit, List.filter_eq_self]
      intro piece hpiece
      have hpiece : piece ≠ [] := fun hnil => nil_notMem_splitOn h hne (hnil ▸ hpiece)
      simpa using hpiece
    rw [hruns, List.intercalate_splitOn]

/-! ### The three steps -/

/-- The first step leaves the runs as they are, also a run that has already begun. -/
theorem runs_collapse (cs : List Char) :
    (∀ run : List Char, runs (run ++ collapse false cs) = runs (run ++ cs)) ∧
      runs (collapse true cs) = runs cs := by
  induction cs with
  | nil => exact ⟨fun run => rfl, rfl⟩
  | cons c cs ih =>
    by_cases hc : c.isAlphanum = true
    · have hgoesOn : ∀ run, runs (run ++ c :: collapse false cs) = runs (run ++ c :: cs) := by
        intro run
        have hrun := ih.1 (run ++ [c])
        rwa [List.append_assoc, List.append_assoc, List.singleton_append, List.singleton_append] at hrun
      refine ⟨fun run => ?_, ?_⟩
      · rw [collapse, if_pos hc, hgoesOn]
      · rw [collapse, if_pos hc]
        exact hgoesOn []
    · rw [Bool.not_eq_true] at hc
      refine ⟨fun run => ?_, ?_⟩
      · rw [collapse, hc, if_neg (by decide), if_neg (by decide), runs_append_cons (by decide),
          runs_append_cons hc, ih.2]
      · rw [collapse, hc, if_neg (by decide), if_pos rfl, runs_cons hc, ih.2]

theorem of_mem_collapse {inRun : Bool} (h : c ∈ collapse inRun cs) : c.isAlphanum = true ∨ c = '_' := by
  induction cs generalizing inRun with
  | nil => cases h
  | cons d cs ih =>
    rw [collapse] at h
    split at h
    · rename_i hd
      rcases List.mem_cons.mp h with rfl | h
      · exact .inl hd
      · exact ih h
    · split at h
      · exact ih h
      · rcases List.mem_cons.mp h with rfl | h
        · exact .inr rfl
        · exact ih h

/-- After the first step no two underscores stand next to each other, for no second one follows one. -/
theorem single_collapse (cs : List Char) :
    ¬ ['_', '_'] <:+: collapse false cs ∧
      (¬ ['_', '_'] <:+: collapse true cs ∧ (collapse true cs).head? ≠ some '_') := by
  induction cs with
  | nil => simp [collapse]
  | cons c cs ih =>
    obtain ⟨hfalse, htrue, hhead⟩ := ih
    by_cases hc : c.isAlphanum = true
    · have hne : c ≠ '_' := by
        rintro rfl
        cases hc
      have hsingle : ¬ ['_', '_'] <:+: c :: collapse false cs := by
        simp [List.infix_cons_iff, hfalse, Ne.symm hne]
      simp only [collapse, hc, if_true]
      exact ⟨hsingle, hsingle, by simpa using hne⟩
    · rw [Bool.not_eq_true] at hc
      have hsingle : ¬ ['_', '_'] <:+: '_' :: collapse true cs := by
        rw [List.infix_cons_iff, List.cons_prefix_cons, not_or]
        refine ⟨?_, htrue⟩
        rintro ⟨-, rest, hrest⟩
        exact hhead (by rw [← hrest]; rfl)
      simp only [collapse, hc]
      exact ⟨hsingle, htrue, hhead⟩

/-- The first two steps: a text with one underscore for whatever stands between its runs. -/
def joined (key : String) : List Char :=
  Text.strip (· == '_') (collapse false key.toList)

theorem variableName_eq (key : String) :
    variableName key = String.ofList ((joined key).map Char.toUpper) := by
  simp only [variableName, Text.stripEnd, Text.stripStart, String.toList_ofList]
  rfl

/-- Underscores at the ends belong to no run. -/
theorem runs_joined (key : String) : runs (joined key) = runs key.toList := by
  have hother : ∀ c : Char, (c == '_') = true → (!c.isAlphanum) = true := by
    intro c hc
    rw [beq_iff_eq.mp hc]
    rfl
  calc runs (joined key)
      = runs (collapse false key.toList) := Text.pieces_strip hother _
    _ = runs key.toList := (runs_collapse key.toList).1 []

theorem spaced_joined (key : String) : Spaced (joined key) := by
  have hbare := Text.bare_strip (· == '_') (collapse false key.toList)
  exact {
    start := fun hstart => absurd (hbare.head '_' hstart) (by decide)
    stop := fun hstop => absurd (hbare.last '_' hstop) (by decide)
    single := fun h => (single_collapse key.toList).1 (h.trans (Text.strip_isInfix _ _)) }

theorem joined_eq (key : String) : joined key = ['_'].intercalate (runs key.toList) := by
  rw [← runs_joined]
  exact eq_intercalate_runs (spaced_joined key) fun c hc =>
    of_mem_collapse ((Text.strip_isInfix _ _).subset hc)

/-! ### Upper case -/

/-- The runs of a key in upper case. -/
def upperRuns (key : String) : List (List Char) :=
  (runs key.toList).map (List.map Char.toUpper)

/-- Two keys have the same runs, but for the case of letters. -/
def SameRuns (key key' : String) : Prop :=
  (runs key.toList).map (List.map Char.toLower) = (runs key'.toList).map (List.map Char.toLower)

instance (key key' : String) : Decidable (SameRuns key key') :=
  inferInstanceAs (Decidable (_ = _))

theorem map_intercalate (f : Char → Char) (sep : List Char) (rs : List (List Char)) :
    (sep.intercalate rs).map f = (sep.map f).intercalate (rs.map (List.map f)) := by
  induction rs with
  | nil => rfl
  | cons run rs ih =>
    rcases rs with _ | ⟨next, rs⟩
    · simp
    · rw [List.intercalate_cons_cons, List.map_append, List.map_append, ih]
      simp [List.intercalate_cons_cons]

theorem isUpper_or_isDigit_toUpper (hc : c.isAlphanum = true) :
    c.toUpper.isUpper = true ∨ c.toUpper.isDigit = true := by
  rw [Char.isAlphanum, Bool.or_eq_true] at hc
  by_cases halpha : c.isAlpha = true
  · exact .inl (by rw [Char.isUpper_toUpper_eq_isAlpha, halpha])
  · have hlower : ¬ c.isLower = true := fun h => halpha (by rw [Char.isAlpha, h, Bool.or_true])
    rw [Char.toUpper_eq_of_not_isLower hlower]
    exact .inr (hc.resolve_left halpha)

theorem of_mem_upperRuns {key : String} (h : run ∈ upperRuns key) :
    run ≠ [] ∧ ∀ c ∈ run, c.isUpper = true ∨ c.isDigit = true := by
  obtain ⟨run, hrun, rfl⟩ := List.mem_map.mp h
  obtain ⟨hne, hrun⟩ := of_mem_runs hrun
  refine ⟨by simpa using hne, fun c hc => ?_⟩
  obtain ⟨c, hmem, rfl⟩ := List.mem_map.mp hc
  exact isUpper_or_isDigit_toUpper (hrun c hmem)

theorem isAlphanum_of_upper (hc : c.isUpper = true ∨ c.isDigit = true) : c.isAlphanum = true := by
  rcases hc with hc | hc <;> simp [Char.isAlphanum, Char.isAlpha, hc]

/-- **The name of a variable** is made of the runs of its key, in upper case. -/
theorem toList_variableName (key : String) :
    (variableName key).toList = ['_'].intercalate (upperRuns key) := by
  rw [variableName_eq, String.toList_ofList, joined_eq, map_intercalate]
  rfl

theorem runs_variableName (key : String) : runs (variableName key).toList = upperRuns key := by
  rw [toList_variableName]
  refine runs_intercalate fun run hrun => ?_
  obtain ⟨hne, hrun⟩ := of_mem_upperRuns hrun
  exact ⟨hne, fun c hc => isAlphanum_of_upper (hrun c hc)⟩

theorem spaced_variableName (key : String) : Spaced (variableName key).toList := by
  rw [toList_variableName]
  by_cases hnone : upperRuns key = []
  · rw [hnone]
    exact ⟨by simp, by simp, by simp⟩
  · have hunderscore : ∀ run ∈ upperRuns key, '_' ∉ run := by
      intro run hrun hmem
      exact absurd ((of_mem_upperRuns hrun).2 '_' hmem) (by decide)
    refine spaced_of_nil_notMem_splitOn ?_
    rw [List.splitOn_intercalate '_' hunderscore hnone]
    exact fun hmem => (of_mem_upperRuns hmem).1 rfl

theorem of_mem_variableName {key : String} (h : c ∈ (variableName key).toList) :
    c.isUpper = true ∨ c.isDigit = true ∨ c = '_' := by
  rw [variableName_eq, String.toList_ofList] at h
  obtain ⟨d, hd, rfl⟩ := List.mem_map.mp h
  rcases of_mem_collapse ((Text.strip_isInfix _ _).subset hd) with hrun | rfl
  · exact or_assoc.mp (.inl (isUpper_or_isDigit_toUpper hrun))
  · exact .inr (.inr rfl)

/-- Putting letters in upper case does not tell less than putting them in lower case. -/
theorem map_toUpper_eq_iff {rs rs' : List (List Char)} :
    rs.map (List.map Char.toUpper) = rs'.map (List.map Char.toUpper) ↔
      rs.map (List.map Char.toLower) = rs'.map (List.map Char.toLower) := by
  have hlower : ∀ rs : List (List Char),
      (rs.map (List.map Char.toUpper)).map (List.map Char.toLower) = rs.map (List.map Char.toLower) := by
    simp [Function.comp_def]
  have hupper : ∀ rs : List (List Char),
      (rs.map (List.map Char.toLower)).map (List.map Char.toUpper) = rs.map (List.map Char.toUpper) := by
    simp [Function.comp_def]
  constructor
  · intro h
    rw [← hlower rs, h, hlower]
  · intro h
    rw [← hupper rs, h, hupper]

/-- **Two keys have the same name** if and only if they have the same runs. -/
theorem variableName_eq_iff {key key' : String} : variableName key = variableName key' ↔ SameRuns key key' := by
  rw [SameRuns, ← map_toUpper_eq_iff]
  constructor
  · intro h
    have hruns := runs_variableName key
    rwa [h, runs_variableName, eq_comm] at hruns
  · intro h
    rw [← String.toList_inj, toList_variableName, toList_variableName, upperRuns, h, upperRuns]

/-- Keys of several spellings with one name, and a key that has another run. -/
example : variableName "--my_App?(1]" = "MY_APP_1" ∧ SameRuns "--my_App?(1]" "MY.app/1" ∧
    ¬ SameRuns "myApp1" "my-app1" := by
  decide +kernel

theorem variableName_variableName (key : String) : variableName (variableName key) = variableName key := by
  rw [variableName_eq_iff, SameRuns, runs_variableName, ← map_toUpper_eq_iff]
  simp [upperRuns, Function.comp_def]

/-! ### Exports -/

/-- With one beginning there is one variable for each key that the bundle has. -/
theorem names_exportsOf (data : SecretData) (keys : List String) (beginning : String) :
    (exportsOf data keys [beginning]).map CredentialExport.name
      = (keys.filter fun key => (Assoc.get? data key).isSome).map
        fun key => beginning ++ variableName key := by
  induction keys with
  | nil => rfl
  | cons key keys ih =>
    rw [exportsOf] at ih ⊢
    rw [List.flatMap_cons, List.map_append, ih, List.filter_cons]
    cases Assoc.get? data key <;> rfl

theorem nodup_names_exportsOf_iff {data : SecretData} {keys : List String} {beginning : String} :
    ((exportsOf data keys [beginning]).map CredentialExport.name).Nodup ↔
      (keys.filter fun key => (Assoc.get? data key).isSome).Pairwise fun key key' =>
        ¬ SameRuns key key' := by
  rw [names_exportsOf, List.Nodup, List.pairwise_map]
  simp only [ne_eq, String.append_right_inj, variableName_eq_iff]

/-- **The name of a variable is the runs of its key**, in upper case and with one underscore between them.
So it has upper case letters, digits and single underscores inside only, and is its own name; and keys share a
name exactly if they share their runs, which is when variables with one beginning collide. -/
theorem variableName_joins_runs (key key' : String) :
    (variableName key).toList
        = ['_'].intercalate ((runs key.toList).map (List.map Char.toUpper)) ∧
      (∀ c ∈ (variableName key).toList, c.isUpper = true ∨ c.isDigit = true ∨ c = '_') ∧
      Spaced (variableName key).toList ∧
      variableName (variableName key) = variableName key ∧
      (variableName key = variableName key' ↔ SameRuns key key') ∧
      ∀ data keys beginning, ((exportsOf data keys [beginning]).map CredentialExport.name).Nodup ↔
        (keys.filter fun key => (Assoc.get? data key).isSome).Pairwise fun key key' =>
          ¬ SameRuns key key' :=
  ⟨toList_variableName key, fun _ => of_mem_variableName, spaced_variableName key,
    variableName_variableName key, variableName_eq_iff, fun _ _ _ => nodup_names_exportsOf_iff⟩

end Credentials

end PipelineConfig
