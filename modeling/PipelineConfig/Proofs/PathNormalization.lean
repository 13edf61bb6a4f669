import PipelineConfig.Proofs.FirstError
import PipelineConfig.Proofs.SecretPaths
import PipelineConfig.Secret.KvServer

/-!
# Bringing a path into its form again

A path is brought into one form several times on its way to a server: when it is made from a template, when the
secret is looked up, and when the address of a request is written. That is harmless as long as only the first
time changes anything. It does so if all blanks at the ends of a path stand outside of the slashes there
(`PipelineConfig.SecretPath.BlanksOutside`). But blanks are dropped before slashes are, and only once: in
`/ a` the slash goes, and the blank behind it has come to the front. Such a path is not in its form yet
(`PipelineConfig.SecretPath.normalize_normalize_iff`), and it is not what the server is asked for.

A path that is in its form is used as it stands in all requests
(`PipelineConfig.KvServer.questions_secret`).
-/

namespace PipelineConfig

namespace SecretPath

variable {path : String}

/-- **The blanks at the ends of a path stand outside of the slashes there**: when the path has been trimmed and
then the slashes at its ends have gone, no blank has come to an end. -/
def BlanksOutside (path : String) : Prop :=
  Text.Bare Text.isBlank (Text.strip (· == '/') (Text.trimChars path.toList))

instance (path : String) : Decidable (BlanksOutside path) :=
  inferInstanceAs (Decidable (Text.Bare _ _))

/-- Bringing a path into its form keeps its segments. -/
theorem segments_normalize (path : String) :
    segments (normalize path).toList = segments (Text.trimChars path.toList) := by
  rw [toList_normalize, segments_eq_pieces, segments_eq_pieces]
  exact Text.pieces_intercalate rfl fun _ => Text.of_mem_pieces

theorem trim_eq_self_iff {s : String} : Text.trim s = s ↔ Text.Bare Text.isBlank s.toList := by
  rw [Text.trim, ← String.toList_inj, String.toList_ofList, Text.trimChars_eq_strip, Text.strip_eq_self_iff]

/-- The form of a path has no blanks at its ends exactly if those of the path stand outside of its slashes. -/
theorem trim_normalize_iff : Text.trim (normalize path) = normalize path ↔ BlanksOutside path := by
  have hslash : ∀ c : Char, (c == '/') = true → (c == '/') = true := fun _ => id
  rw [trim_eq_self_iff, toList_normalize, segments_eq_pieces, ← Text.pieces_strip hslash]
  exact Text.bare_intercalate_pieces_iff (Text.bare_strip _ _)

theorem normalize_sublist (path : String) : (normalize path).toList.Sublist (Text.trimChars path.toList) := by
  rw [toList_normalize, segments_eq_pieces]
  exact Text.intercalate_pieces_sublist '/' _

/-- The form of a path is kept if and only if it has no blanks at its ends. -/
theorem normalize_normalize_iff_trim :
    normalize (normalize path) = normalize path ↔ Text.trim (normalize path) = normalize path := by
  constructor
  · intro h
    -- nothing is put in, so nothing can have been dropped by trimming
    have hsub := normalize_sublist (normalize path)
    rw [h] at hsub
    rw [Text.trim, ← String.toList_inj, String.toList_ofList]
    exact (Text.strip_isInfix _ _).sublist.antisymm hsub
  · intro h
    have htrim : Text.trimChars (normalize path).toList = (normalize path).toList := by
      rwa [Text.trim, ← String.toList_inj, String.toList_ofList] at h
    rw [← String.toList_inj, toList_normalize, htrim, segments_normalize, ← toList_normalize]

/-- **Bringing a path into its form twice** is the same as once if and only if the blanks at its ends stand
outside of its slashes. -/
theorem normalize_normalize_iff : normalize (normalize path) = normalize path ↔ BlanksOutside path :=
  normalize_normalize_iff_trim.trans trim_normalize_iff

/-- What has changed is not brought back by doing it again. -/
theorem normalize_normalize_eq_self_iff : normalize (normalize path) = path ↔ normalize path = path := by
  constructor
  · intro h
    have htwice := (normalize_sublist (normalize path)).trans (Text.strip_isInfix _ _).sublist
    have honce := (normalize_sublist path).trans (Text.strip_isInfix _ _).sublist
    rw [h] at htwice
    exact String.toList_inj.mp (honce.antisymm htwice)
  · intro h
    rw [h, h]

/-- No segment of the form of a path is empty. -/
theorem empty_notMem_splitOn_normalize (h : normalize path ≠ "") :
    "" ∉ Text.splitOn '/' (normalize path) := by
  have hchars := toList_normalize path
  have hne : segments (Text.trimChars path.toList) ≠ [] := by
    intro hnil
    rw [hnil, List.intercalate_nil, String.toList_eq_nil_iff] at hchars
    exact h hchars
  rw [Text.splitOn, Text.splitChars_eq_splitOn, hchars,
    List.splitOn_intercalate '/' (fun _ hsegment => (of_mem_segments hsegment).2.1) hne]
  intro hmem
  obtain ⟨segment, hsegment, hempty⟩ := List.mem_map.mp hmem
  exact (of_mem_segments hsegment).1 (by simpa using congrArg String.toList hempty)

/-! ### Paths that are in their form -/

/-- A path is in its form, and there is something in it. -/
structure Normal (path : String) : Prop where
  ne_empty : path ≠ ""
  normalize_eq : normalize path = path

theorem Normal.bare (h : Normal path) : Text.Bare Text.isBlank path.toList := by
  have hkept : normalize (normalize path) = normalize path := congrArg normalize h.normalize_eq
  rw [normalize_normalize_iff_trim, h.normalize_eq] at hkept
  exact trim_eq_self_iff.mp hkept

theorem Normal.toList_eq (h : Normal path) : path.toList = ['/'].intercalate (segments path.toList) := by
  have hchars := toList_normalize path
  rwa [h.normalize_eq, Text.trimChars_eq_strip, Text.strip_eq_self_iff.mpr h.bare] at hchars

theorem Normal.segments_ne_nil (h : Normal path) : segments path.toList ≠ [] := by
  intro hnil
  have hchars := h.toList_eq
  rw [hnil, List.intercalate_nil, String.toList_eq_nil_iff] at hchars
  exact h.ne_empty hchars

/-- Paths in their form may be put behind one another. -/
theorem Normal.append {path' : String} (h : Normal path) (h' : Normal path') :
    Normal (path ++ "/" ++ path') := by
  have hchars := toList_append_slash path path'
  have hne : path.toList ≠ [] := fun hnil => h.ne_empty (String.toList_eq_nil_iff.mp hnil)
  have hne' : path'.toList ≠ [] := fun hnil => h'.ne_empty (String.toList_eq_nil_iff.mp hnil)
  have hbare : Text.Bare Text.isBlank (path ++ "/" ++ path').toList := by
    refine ⟨fun c hc => h.bare.head c ?_, fun c hc => h'.bare.last c ?_⟩
    · rwa [hchars, List.head?_append_of_ne_nil _ hne] at hc
    · rwa [hchars, List.append_cons, List.getLast?_append_of_ne_nil _ hne'] at hc
  constructor
  · intro hempty
    rw [hempty] at hchars
    exact List.append_ne_nil_of_left_ne_nil hne _ hchars.symm
  · rw [← String.toList_inj, toList_normalize, Text.trimChars_eq_strip, Text.strip_eq_self_iff.mpr hbare,
      hchars, segments_append_cons, Text.intercalate_append h.segments_ne_nil h'.segments_ne_nil,
      ← h.toList_eq, ← h'.toList_eq]

/-! ### Paths from templates -/

/-- What templates come to: each path is the form of what one of them comes to. -/
theorem exists_of_mem_ofTemplates {key : String} {config : Mapping} {templates paths : List String}
    (h : ofTemplates key config templates = .ok paths) (hpath : path ∈ paths) :
    path ≠ "" ∧ ∃ template ∈ templates, ∃ text,
      Template.interpolate key template config = .ok text ∧ path = normalize text := by
  induction templates generalizing paths with
  | nil =>
    obtain rfl := Except.ok.inj h
    cases hpath
  | cons template templates ih =>
    rw [ofTemplates] at h
    split at h
    · obtain ⟨text, htext, h⟩ := bind_eq_ok_iff.mp h
      obtain ⟨more, hmore, h⟩ := bind_eq_ok_iff.mp h
      rw [← Except.ok.inj h] at hpath
      by_cases hempty : (normalize text).isEmpty = true
      · rw [if_pos hempty] at hpath
        obtain ⟨hne, template', hmem, hfrom⟩ := ih hmore hpath
        exact ⟨hne, template', List.mem_cons_of_mem _ hmem, hfrom⟩
      · rw [if_neg hempty] at hpath
        rcases List.mem_cons.mp hpath with hnew | hold
        · refine ⟨fun hnil => hempty ?_, template, List.mem_cons_self, text, htext, hnew⟩
          rw [← hnew, hnil]
          rfl
        · obtain ⟨hne, template', hmem, hfrom⟩ := ih hmore hold
          exact ⟨hne, template', List.mem_cons_of_mem _ hmem, hfrom⟩
    · obtain ⟨hne, template', hmem, hfrom⟩ := ih h hpath
      exact ⟨hne, template', List.mem_cons_of_mem _ hmem, hfrom⟩

end SecretPath

/-! ### Requests -/

namespace KvServer

variable {s : KvServer} {path : String} {reply : Http.Request → Option Http.Response}

/-- The request for a path as it stands; there is none if it cannot be put together. -/
def request? (s : KvServer) (path : String) : Option Http.Request :=
  (Http.Request.make .get (s.address ++ "/v1/" ++ path) s.headers "").toOption

/-- **The requests for the secret at a path as it stands**, given what is told of the engine: one for the
engine, and one for the data, which the first version has at the path and the second one below `data`. -/
def requestsFor (s : KvServer) (path : String) (engine : Except SecretError (String × Nat)) :
    List Http.Request :=
  (s.request? ("sys/internal/ui/mounts/" ++ path)).toList ++
    match engine with
    | .error _ => []
    | .ok (mount, version) =>
      if version = 1 then (s.request? path).toList
      else if version = 2 then (s.request? (SecretPath.normalize (versionedPath path mount))).toList
      else []

/-- The address of the form of a path is that of the path as it stands only if it is in its form. -/
theorem url_normalize_eq_iff : s.url (SecretPath.normalize path) = s.address ++ "/v1/" ++ path ↔
    SecretPath.normalize path = path := by
  rw [url, String.append_right_inj]
  exact SecretPath.normalize_normalize_eq_self_iff

/-- Data is read with one request, for the form of the path. -/
theorem questions_readData (s : KvServer) (path : String) :
    ((s.readData path).run reply).2 = (s.request? (SecretPath.normalize path)).toList := by
  rw [readData, request?, url]
  rcases Http.Request.make .get (s.address ++ "/v1/" ++ SecretPath.normalize path) s.headers "" with
    failure | request
  · rfl
  · simp only [Dialog.run_bind_snd]
    have hsend : ((Http.send request).run reply).2 = [request] := rfl
    rw [hsend]
    refine congrArg (request :: ·) ?_
    rcases ((Http.send request).run reply).1 with failure | response
    · rfl
    · simp only
      split
      · rfl
      · split
        · rfl
        · split <;> rfl

theorem questions_engine (s : KvServer) (path : String) : ((s.engine path).run reply).2
    = (s.request? (SecretPath.normalize ("sys/internal/ui/mounts/" ++ path))).toList := by
  rw [engine, Dialog.run_bind_snd, questions_readData]
  refine (congrArg (_ ++ ·) ?_).trans (List.append_nil _)
  rcases ((s.readData ("sys/internal/ui/mounts/" ++ path)).run reply).1 with e | _ | data
  · rfl
  · rfl
  · simp only
    rcases Mount.ofJson? data with _ | mount
    · rfl
    · simp only
      split
      · rfl
      · rfl
      · split <;> rfl

/-- **A secret is asked for at the form of its path.** -/
theorem questions_secret (s : KvServer) (h : SecretPath.Normal path) :
    ((s.secret path).run reply).2 = s.requestsFor path ((s.engine path).run reply).1 := by
  have hlookup : SecretPath.normalize ("sys/internal/ui/mounts/" ++ path)
      = "sys/internal/ui/mounts/" ++ path := by
    have hfolder : SecretPath.Normal "sys/internal/ui/mounts" := ⟨by decide, by decide +kernel⟩
    exact (hfolder.append h).normalize_eq
  rw [secret, h.normalize_eq, Dialog.run_bind_snd, questions_engine, hlookup]
  refine congrArg (_ ++ ·) ?_
  rcases ((s.engine path).run reply).1 with e | ⟨mount, version⟩
  · rfl
  · simp only
    split
    · rw [Dialog.run_bind_snd, questions_readData, h.normalize_eq]
      refine (congrArg (_ ++ ·) ?_).trans (List.append_nil _)
      rcases ((s.readData path).run reply).1 with e | _ | data <;> rfl
    · split
      · rw [Dialog.run_bind_snd, questions_readData]
        refine (congrArg (_ ++ ·) ?_).trans (List.append_nil _)
        rcases ((s.readData (versionedPath path mount)).run reply).1 with e | _ | data <;> rfl
      · rfl

end KvServer

/-! ### Paths of a reference -/

namespace SecretPath

/-- **Bringing a path into its form twice is the same as once** exactly if the blanks at its ends stand outside
of the slashes there. The paths of a reference are never empty and have no empty segments, and each is the form
of the text that a template comes to. If the blanks of this text stand outside of its slashes, and only then,
the path has no blanks at its ends and is its own form, and the address of a lookup is that of this very path;
then all requests are those for the path as it stands. -/
theorem normalize_twice_iff_blanksOutside (written : String) (r : ResourceReference) (config : Mapping) :
    (normalize (normalize written) = normalize written ↔ BlanksOutside written) ∧
    ∀ paths, r.secretPaths config = .ok paths → ∀ path ∈ paths,
      path ≠ "" ∧ "" ∉ Text.splitOn '/' path ∧
      ∃ template ∈ r.templates config, ∃ text,
        Template.interpolate r.name template config = .ok text ∧ path = normalize text ∧
        (Text.trim path = path ↔ BlanksOutside text) ∧
        (normalize path = path ↔ BlanksOutside text) ∧
        (∀ s : KvServer, s.url (normalize path) = s.address ++ "/v1/" ++ path ↔ BlanksOutside text) ∧
        (BlanksOutside text → ∀ (s : KvServer) (reply : Http.Request → Option Http.Response),
          ((s.secret path).run reply).2 = s.requestsFor path ((s.engine path).run reply).1) := by
  refine ⟨normalize_normalize_iff, fun paths h path hpath => ?_⟩
  obtain ⟨hne, template, htemplate, text, htext, hform⟩ := exists_of_mem_ofTemplates h hpath
  rw [hform] at hne ⊢
  refine ⟨hne, empty_notMem_splitOn_normalize hne, template, htemplate, text, htext, rfl,
    trim_normalize_iff, normalize_normalize_iff, fun s => ?_, fun hblanks s reply => ?_⟩
  · rw [KvServer.url_normalize_eq_iff]
    exact normalize_normalize_iff
  · exact KvServer.questions_secret s ⟨hne, normalize_normalize_iff.mpr hblanks⟩

/-- A reference with two templates. The path of the first one is asked for as it stands. The second one has a
blank behind its slash, which stands in front of its path, and would be dropped the next time. -/
theorem normalize_twice_blank_behind_slash :
    let config : Mapping := [("vaultPath", .string " team/")]
    let r : ResourceReference := ⟨"ciSecretName", vaultSecret, none, ["$(vaultPath)/b/", "/ a"], none, []⟩
    r.secretPaths config = .ok ["team/b", " a"] ∧
      (∀ (s : KvServer) (reply : Http.Request → Option Http.Response),
        ((s.secret "team/b").run reply).2 = s.requestsFor "team/b" ((s.engine "team/b").run reply).1) ∧
      normalize "/ a" = " a" ∧ normalize (normalize "/ a") ≠ normalize "/ a" := by
  intro config r
  have hpaths : r.secretPaths config = .ok ["team/b", " a"] := by decide +kernel
  obtain ⟨htwice, hreference⟩ := normalize_twice_iff_blanksOutside "/ a" r config
  obtain ⟨-, -, _, -, _, -, -, -, hform, -, hasked⟩ := hreference _ hpaths "team/b" List.mem_cons_self
  exact ⟨hpaths, hasked (hform.mp (by decide +kernel)), by decide +kernel,
    htwice.not.mpr (by decide +kernel)⟩

end SecretPath

end PipelineConfig
