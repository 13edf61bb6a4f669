import Mathlib.Data.List.Basic
import PipelineConfig.Proofs.SecretPaths
import PipelineConfig.Secret.KvServer

/-!
# Where engines of the second version keep a secret

An engine of the second version keeps a secret under `data`, between its mount and the rest of the path. The
rest is what is left when the text of the mount is dropped from the text of the path, and that is not always
what is left of its segments. The text of the mount may end *inside* of a segment
(`PipelineConfig.KvServer.EndsInside`): the mount `kv` is the beginning of `kvstore/app`, though it is none of
its segments. Then the segment is torn, and `store/app` is taken for the rest.

This is the only way in which the text of a mount can be the beginning of that of a path without its segments
being the first ones of the path (`PipelineConfig.KvServer.isPrefix_or_endsInside`). So everywhere else the
segments are what they should be (`PipelineConfig.KvServer.versionedPath_segments_iff_not_endsInside`).
-/

namespace PipelineConfig

/-! ### Beginnings of joined texts -/

namespace Text

variable {sep : Char} {m p rest : List Char} {ms ps : List (List Char)}

/-- A beginning without a separator ends before the separator. -/
theorem isPrefix_of_isPrefix_append_cons (hm : sep ∉ m) (h : m <+: p ++ sep :: rest) : m <+: p := by
  obtain ⟨after, h⟩ := h
  rcases List.append_eq_append_iff.mp h with ⟨more, rfl, -⟩ | ⟨more, rfl, hrest⟩
  · exact List.prefix_append m more
  · rcases more with _ | ⟨c, more⟩
    · simp
    · obtain rfl : sep = c := (List.cons.inj hrest).1
      exact absurd (by simp) hm

/-- Texts are equal on both sides of their first separators. -/
theorem append_cons_inj {xs ys : List Char} (hm : sep ∉ m) (hp : sep ∉ p)
    (h : m ++ sep :: xs = p ++ sep :: ys) : m = p ∧ xs = ys := by
  have hcut := (cut?_append_cons_eq_some_iff sep m xs).mpr hm
  rw [h, (cut?_append_cons_eq_some_iff sep p ys).mpr hp, Option.some.injEq, Prod.mk.injEq] at hcut
  exact ⟨hcut.1.symm, hcut.2.symm⟩

/-- **A joined text that begins with another one** begins with its texts, or with all but the last of them
and a beginning of the next text. -/
theorem isPrefix_of_intercalate_isPrefix (hms : ∀ m ∈ ms, m ≠ [] ∧ sep ∉ m) (hps : ∀ p ∈ ps, sep ∉ p)
    (h : [sep].intercalate ms <+: [sep].intercalate ps) :
    ms <+: ps ∨ ∃ front name more rest, more ≠ [] ∧ ms = front ++ [name] ∧
      ps = front ++ (name ++ more) :: rest := by
  induction ms generalizing ps with
  | nil => exact .inl List.nil_prefix
  | cons m ms ih =>
    obtain ⟨⟨hne, hm⟩, hms⟩ := List.forall_mem_cons.mp hms
    rcases ms with _ | ⟨m', ms⟩ <;> rcases ps with _ | ⟨p, ps⟩
    · -- the only text of the one, and nothing in the other
      exact absurd (by simpa using h) hne
    · obtain ⟨more, rfl⟩ : m <+: p := by
        rw [List.intercalate_singleton] at h
        rcases ps with _ | ⟨p', ps⟩
        · rwa [List.intercalate_singleton] at h
        · rw [List.intercalate_cons_cons, List.append_assoc, List.singleton_append] at h
          exact isPrefix_of_isPrefix_append_cons hm h
      by_cases hmore : more = []
      · subst hmore
        rw [List.append_nil]
        exact .inl (List.cons_prefix_cons.mpr ⟨rfl, List.nil_prefix⟩)
      · exact .inr ⟨[], m, more, ps, hmore, rfl, rfl⟩
    · rw [List.intercalate_cons_cons, List.intercalate_nil, List.prefix_nil] at h
      exact absurd h (by simp)
    · obtain ⟨hp, hrest⟩ := List.forall_mem_cons.mp hps
      rw [List.intercalate_cons_cons, List.append_assoc, List.singleton_append] at h
      rcases ps with _ | ⟨p', ps⟩
      · -- the separator would be in the only text of the other
        rw [List.intercalate_singleton] at h
        exact absurd (h.subset (by simp)) hp
      · obtain ⟨after, h⟩ := h
        rw [List.intercalate_cons_cons, List.append_assoc, List.append_assoc, List.cons_append,
          List.singleton_append] at h
        obtain ⟨rfl, hbehind⟩ := append_cons_inj hm hp h
        rcases ih hms hrest ⟨after, hbehind⟩ with hprefix | ⟨front, name, more, rest, hmore, hms, hps⟩
        · exact .inl (List.cons_prefix_cons.mpr ⟨rfl, hprefix⟩)
        · exact .inr ⟨m :: front, name, more, rest, hmore, by rw [hms]; rfl, by rw [hps]; rfl⟩

end Text

namespace KvServer

open SecretPath (Solid Writes)

variable {mount path names : List String} {text rest : String}

/-- The text of a mount ends inside of a segment of a path: its last segment is only the beginning of the one
that stands in its place in the path. -/
def EndsInside (mount path : List String) : Prop :=
  ∃ front name more rest, more ≠ "" ∧ mount = front ++ [name] ∧ path = front ++ (name ++ more) :: rest

theorem EndsInside.not_isPrefix (h : EndsInside mount path) : ¬ mount <+: path := by
  obtain ⟨front, name, more, rest, hmore, rfl, rfl⟩ := h
  rw [List.prefix_append_right_inj, List.cons_prefix_cons]
  rintro ⟨hname, -⟩
  rw [← String.toList_inj, String.toList_append, List.self_eq_append_right] at hname
  exact hmore (String.toList_eq_nil_iff.mp hname)

/-- **The text of a mount is the beginning of that of a path** only if its segments are, or if it ends inside
of a segment. -/
theorem isPrefix_or_endsInside (hmount : ∀ name ∈ mount, Solid name) (hpath : ∀ name ∈ path, Solid name)
    (h : Text.startsWith ("/".intercalate mount) ("/".intercalate path) = true) :
    mount <+: path ∨ EndsInside mount path := by
  rw [Text.startsWith, List.isPrefixOf_iff_prefix, String.toList_intercalate,
    String.toList_intercalate] at h
  have hms : ∀ cs ∈ mount.map String.toList, cs ≠ [] ∧ '/' ∉ cs := by
    intro cs hcs
    obtain ⟨name, hname, rfl⟩ := List.mem_map.mp hcs
    exact ⟨by simpa using (hmount name hname).ne_empty, (hmount name hname).slash_notMem⟩
  have hps : ∀ cs ∈ path.map String.toList, '/' ∉ cs := by
    intro cs hcs
    obtain ⟨name, hname, rfl⟩ := List.mem_map.mp hcs
    exact (hpath name hname).slash_notMem
  rcases Text.isPrefix_of_intercalate_isPrefix hms hps h with
    hprefix | ⟨front, name, more, rest, hmore, hmount, hpath⟩
  · exact .inl ((List.prefix_map_iff_of_injective fun _ _ => String.toList_inj.mp).mp hprefix)
  · have hback : ∀ {names : List String} {texts : List (List Char)}, names.map String.toList = texts →
        names = texts.map String.ofList := by
      rintro names - rfl
      rw [List.map_map]
      exact (List.map_id'' (fun _ => String.ofList_toList) names).symm
    refine .inr ⟨front.map String.ofList, String.ofList name, String.ofList more,
      rest.map String.ofList, ?_, ?_, ?_⟩
    · simpa [← String.toList_inj] using hmore
    · rw [hback hmount, List.map_append, List.map_singleton]
    · rw [hback hpath, List.map_append, List.map_cons, String.ofList_append]

/-! ### What is left of a path -/

theorem normalize_data (hmount : ∀ name ∈ mount, Solid name) (hnames : ∀ name ∈ names, Solid name)
    (hrest : Writes rest names) : SecretPath.normalize ("/".intercalate mount ++ "/data/" ++ rest)
      = "/".intercalate (mount ++ "data" :: names) := by
  have hdata : Solid "data" := by decide
  have htext : "/".intercalate mount ++ "/data/" ++ rest
      = "/".intercalate mount ++ "/" ++ ("/".intercalate ["data"] ++ "/" ++ rest) := by
    rw [← String.toList_inj]
    simp
  have hwrites := (SecretPath.writes_intercalate hmount).append
    ((SecretPath.writes_intercalate (List.forall_mem_singleton.mpr hdata)).append hrest)
  rw [htext]
  refine hwrites.normalize_eq ?_
  simp only [List.forall_mem_append, List.forall_mem_singleton]
  exact ⟨hmount, hdata, hnames⟩

/-- Where the text of a path begins with that of the mount, what is behind it is put behind `data`. -/
theorem versionedPath_append (hmount : ∀ name ∈ mount, Solid name) (hnames : ∀ name ∈ names, Solid name)
    (htext : Writes text mount) (hrest : Writes rest names) :
    versionedPath ("/".intercalate mount ++ rest) text = "/".intercalate (mount ++ "data" :: names) := by
  have hstarts : Text.startsWith ("/".intercalate mount) ("/".intercalate mount ++ rest) = true := by
    rw [Text.startsWith, String.toList_append, List.isPrefixOf_iff_prefix]
    exact List.prefix_append _ _
  rw [versionedPath, htext.normalize_eq hmount]
  simp only [hstarts, if_true]
  rw [String.toList_append, List.drop_left, String.ofList_toList, normalize_data hmount hnames hrest]

/-- The segments behind the mount are written behind its text. -/
theorem exists_intercalate_append (mount : List String) (hnames : ∀ name ∈ names, Solid name) :
    ∃ rest, "/".intercalate (mount ++ names) = "/".intercalate mount ++ rest ∧ Writes rest names := by
  by_cases hmount : mount = []
  · subst hmount
    exact ⟨_, by simp, SecretPath.writes_intercalate hnames⟩
  · by_cases hnone : names = []
    · subst hnone
      exact ⟨"", by simp, SecretPath.writes_empty⟩
    · refine ⟨"" ++ "/" ++ "/".intercalate names, ?_,
        SecretPath.writes_empty.append (SecretPath.writes_intercalate hnames)⟩
      rw [String.intercalate_append_of_ne_nil hmount hnone, String.empty_append, String.append_assoc]

/-- **Below its mount**, a path is put behind `data` segment by segment. -/
theorem versionedPath_intercalate_append (hmount : ∀ name ∈ mount, Solid name)
    (hnames : ∀ name ∈ names, Solid name) (htext : Writes text mount) :
    versionedPath ("/".intercalate (mount ++ names)) text = "/".intercalate (mount ++ "data" :: names) := by
  obtain ⟨rest, hjoined, hrest⟩ := exists_intercalate_append mount hnames
  rw [hjoined, versionedPath_append hmount hnames htext hrest]

/-- A segment may be joined in two steps. -/
theorem intercalate_torn (front : List String) (name more : String) (rest : List String) :
    "/".intercalate (front ++ (name ++ more) :: rest)
      = "/".intercalate (front ++ [name]) ++ "/".intercalate (more :: rest) := by
  by_cases hfront : front = []
  · subst hfront
    simp
  · rw [String.intercalate_append_of_ne_nil hfront (by simp),
      String.intercalate_append_of_ne_nil hfront (by simp), String.intercalate_cons_append,
      String.intercalate_singleton, ← String.append_assoc]

/-! ### The segments of the path that is asked for -/

/-- **What is below a mount**: the segments of a path behind those of the mount, or all of them if the mount's
are not the first ones. -/
def below (mount path : List String) : List String :=
  if mount <+: path then path.drop mount.length else path

theorem versionedPath_of_not_endsInside (hmount : ∀ name ∈ mount, Solid name)
    (hpath : ∀ name ∈ path, Solid name) (htext : Writes text mount) (h : ¬ EndsInside mount path) :
    versionedPath ("/".intercalate path) text = "/".intercalate (mount ++ "data" :: below mount path) := by
  by_cases hprefix : mount <+: path
  · rw [below, if_pos hprefix]
    obtain ⟨names, rfl⟩ := hprefix
    have hnames : ∀ name ∈ names, Solid name := fun name hname => hpath name (List.mem_append_right _ hname)
    rw [List.drop_left, versionedPath_intercalate_append hmount hnames htext]
  · have hstarts : Text.startsWith ("/".intercalate mount) ("/".intercalate path) = false := by
      rw [Bool.eq_false_iff]
      intro hstarts
      exact (isPrefix_or_endsInside hmount hpath hstarts).elim hprefix h
    rw [below, if_neg hprefix, versionedPath, htext.normalize_eq hmount]
    simp only [hstarts]
    exact normalize_data hmount hpath (SecretPath.writes_intercalate hpath)

theorem solid_of_torn {name more : String} (h : Solid (name ++ more)) (hmore : more ≠ "") : Solid more where
  ne_empty := hmore
  slash_notMem hslash := h.slash_notMem (by simp [hslash])
  no_blank c hc := h.no_blank c (by simp [hc])

/-- The segments of a joined path are those that have been joined. -/
theorem splitOn_data (hmount : ∀ name ∈ mount, Solid name) (hnames : ∀ name ∈ names, Solid name) :
    Text.splitOn '/' ("/".intercalate (mount ++ "data" :: names)) = mount ++ "data" :: names := by
  refine Text.splitOn_intercalate (by simp) ?_
  simp only [List.forall_mem_append, List.forall_mem_cons]
  exact ⟨fun name hname => (hmount name hname).slash_notMem, by decide,
    fun name hname => (hnames name hname).slash_notMem⟩

/-- **The path of an engine of the second version is built from segments** exactly if the text of the mount
does not end inside of a segment: then it has the segments of the mount, `data`, and what is below the mount.
Otherwise a beginning of the segment is missing in which it ends. -/
theorem versionedPath_segments_iff_not_endsInside (hmount : ∀ name ∈ mount, Solid name)
    (hpath : ∀ name ∈ path, Solid name) (htext : Writes text mount) :
    (Text.splitOn '/' (versionedPath ("/".intercalate path) text) = mount ++ "data" :: below mount path ↔
      ¬ EndsInside mount path) ∧
    ∀ front name more behind, more ≠ "" → mount = front ++ [name] →
      path = front ++ (name ++ more) :: behind →
      Text.splitOn '/' (versionedPath ("/".intercalate path) text) = mount ++ "data" :: more :: behind := by
  have hbelow : ∀ name ∈ below mount path, Solid name := by
    intro name hname
    rw [below] at hname
    split at hname
    · exact hpath name (List.mem_of_mem_drop hname)
    · exact hpath name hname
  have htorn : ∀ front name more behind, more ≠ "" → mount = front ++ [name] →
      path = front ++ (name ++ more) :: behind →
      Text.splitOn '/' (versionedPath ("/".intercalate path) text) = mount ++ "data" :: more :: behind := by
    rintro front name more behind hmore rfl rfl
    have hleft : ∀ segment ∈ more :: behind, Solid segment := by
      obtain ⟨hwhole, hbehind⟩ := List.forall_mem_cons.mp (List.forall_mem_append.mp hpath).2
      exact List.forall_mem_cons.mpr ⟨solid_of_torn hwhole hmore, hbehind⟩
    rw [intercalate_torn, versionedPath_append hmount hleft htext (SecretPath.writes_intercalate hleft),
      splitOn_data hmount hleft]
  refine ⟨⟨?_, fun h => ?_⟩, htorn⟩
  · rintro hsegments hends
    obtain ⟨front, name, more, behind, hmore, rfl, rfl⟩ := id hends
    rw [htorn front name more behind hmore rfl rfl, below, if_neg hends.not_isPrefix,
      List.append_cancel_left_eq, List.cons.injEq] at hsegments
    -- a path as long as what is left of it has nothing in front of the segment, so the name would be empty
    obtain rfl : front = [] := by
      have hlength := congrArg List.length hsegments.2
      simp only [List.length_append, List.length_cons] at hlength
      exact List.length_eq_zero_iff.mp (by omega)
    have hempty : more = name ++ more := (List.cons.inj hsegments.2).1
    rw [← String.toList_inj, String.toList_append, List.self_eq_append_left] at hempty
    exact (hmount name (by simp)).ne_empty (String.toList_eq_nil_iff.mp hempty)
  · rw [versionedPath_of_not_endsInside hmount hpath htext h, splitOn_data hmount hbelow]

/-- The mount `kv`, written with a slash, and the path of a secret whose first segment begins like it. -/
theorem versionedPath_segments_kvstore :
    let mount := ["kv"]
    let path := ["kvstore", "app"]
    (∀ name ∈ mount, Solid name) ∧ (∀ name ∈ path, Solid name) ∧ Writes "kv/" mount ∧
      EndsInside mount path ∧ below mount path = path ∧
      Text.splitOn '/' (versionedPath ("/".intercalate path) "kv/") = ["kv", "data", "store", "app"] ∧
      Text.splitOn '/' (versionedPath ("/".intercalate path) "kv/") ≠ mount ++ "data" :: below mount path := by
  intro mount path
  have hmount : ∀ name ∈ mount, Solid name := by decide
  have hpath : ∀ name ∈ path, Solid name := by decide
  have htext : Writes "kv/" mount :=
    show SecretPath.segments "kv/".toList = mount.map String.toList by decide +kernel
  have hends : EndsInside mount path := ⟨[], "kv", "store", ["app"], by decide, rfl, rfl⟩
  obtain ⟨hsegments, htorn⟩ := versionedPath_segments_iff_not_endsInside hmount hpath htext
  exact ⟨hmount, hpath, htext, hends, rfl, htorn [] "kv" "store" ["app"] (by decide) rfl rfl,
    fun h => hsegments.mp h hends⟩

end KvServer

end PipelineConfig
