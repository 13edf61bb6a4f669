import PipelineConfig.Proofs.Loading

/-!
# Absent documents and broken ones

Three things have to go well before a document is there: its name opens, its stream is read to the end as a
text, and the text is a configuration document. Where one of the first two fails, the document is *absent*,
and loading goes on without it. Where the third fails, it is *broken*
(`PipelineConfig.ConfigDocument.Broken`), and loading ends.

Which documents there are is settled by the project configuration, since it lists some of them. Once that is
known, all names stand in one row (`PipelineConfig.DocumentSet.listed`): the project configuration, the
defaults, the custom defaults. Loading fails like a walk along this row
(`PipelineConfig.DocumentSet.errorOf?_load`), so the first broken document of the row decides, whatever
is absent before it. What other documents list as custom defaults is not in the row.
-/

namespace PipelineConfig

/-- A stream that is read as a text is the stream of this text. -/
theorem ByteStream.readText_eq_ok_iff {stream : ByteStream} {text : String} :
    stream.readText = .ok text ↔ stream = ofText text := by
  constructor
  · rcases stream with ⟨bytes, failure?⟩
    intro h
    rw [readText] at h
    cases failure? with
    | some failure => cases h
    | none =>
      by_cases hvalid : bytes.IsValidUTF8
      · have hbytes : String.fromUTF8? bytes = some (String.fromUTF8 bytes hvalid) := dif_pos hvalid
        simp only [hbytes] at h
        obtain rfl := Except.ok.inj h
        rfl
      · have hbytes : String.fromUTF8? bytes = none := dif_neg hvalid
        simp only [hbytes] at h
        cases h
  · rintro rfl
    exact readText_ofText text

namespace OpenFile

variable {openFile : OpenFile} {name text : String}

/-- A name holds a text: it opens, and what is behind it are the bytes of the text, with no failure after
them. -/
def Holds (openFile : OpenFile) (name text : String) : Prop :=
  openFile name = .ok (.ofText text)

theorem text?_eq_some_iff : openFile.text? name = some text ↔ openFile.Holds name text := by
  rw [Holds]
  rcases hopen : openFile name with failure | stream
  · simp [text?_of_error hopen]
  · rw [text?_of_ok hopen, Except.ok.injEq, ← ByteStream.readText_eq_ok_iff]
    rcases stream.readText with failure | text' <;> simp [Except.toOption]

end OpenFile

variable {openFile : OpenFile}

namespace ConfigDocument

variable {name : String} {names : List String} {fault : Fault}

/-- **A broken document**: its name holds a text that is not blank, and reading this text fails. -/
def Broken (openFile : OpenFile) (name : String) (fault : Fault) : Prop :=
  ∃ text, openFile.Holds name text ∧ Text.isBlankText text = false ∧ decoder.readText text = .error fault

/-- The document of a name, if its text is one. -/
def document? (openFile : OpenFile) (name : String) : Option ConfigDocument :=
  (openFile.text? name).bind fun text => (ofText name text).toOption

theorem ofText_eq_error_iff {text : String} {e : ConfigError} : ofText name text = .error e ↔
    ∃ fault, Text.isBlankText text = false ∧ decoder.readText text = .error fault ∧
      e = .notParsed name fault := by
  rw [ofText]
  by_cases hblank : Text.isBlankText text
  · simp [hblank]
  · rcases decoder.readText text with fault | document
    · simp [hblank, eq_comm]
    · simp [hblank]

/-- Opening a document fails exactly if the document is broken. -/
theorem errorOf?_open?_eq_some_iff {e : ConfigError} : errorOf? (open? openFile name) = some e ↔
    ∃ fault, Broken openFile name fault ∧ e = .notParsed name fault := by
  rw [open?_eq]
  rcases htext : openFile.text? name with _ | text
  · have hnone : ∀ text, ¬ openFile.Holds name text := by
      intro text hholds
      cases htext.symm.trans (OpenFile.text?_eq_some_iff.mpr hholds)
    simp [Broken, hnone]
  · have hholds : ∀ text', openFile.Holds name text' ↔ text' = text := by
      intro text'
      rw [← OpenFile.text?_eq_some_iff, htext, Option.some.injEq, eq_comm]
    simp only [errorOf?_map, errorOf?_eq_some_iff, ofText_eq_error_iff, Broken, hholds, exists_eq_left,
      and_assoc]

theorem errorOf?_open?_eq_none_iff : errorOf? (open? openFile name) = none ↔
    ∀ fault, ¬ Broken openFile name fault := by
  rw [Option.eq_none_iff_forall_ne_some]
  constructor
  · intro h fault hbroken
    exact h _ (errorOf?_open?_eq_some_iff.mpr ⟨fault, hbroken, rfl⟩)
  · intro h e he
    obtain ⟨fault, hbroken, -⟩ := errorOf?_open?_eq_some_iff.mp he
    exact h fault hbroken

/-- What is not broken is opened as the document that there is, or as none. -/
theorem open?_of_not_broken (h : ∀ fault, ¬ Broken openFile name fault) :
    open? openFile name = .ok (document? openFile name) := by
  rw [← errorOf?_open?_eq_none_iff] at h
  rcases htext : openFile.text? name with _ | text
  · rw [open?_of_no_text htext, document?, htext]
    rfl
  · rw [open?_of_text htext, errorOf?_map] at h
    rw [open?_of_text htext, document?, htext, Option.bind_some]
    rcases hdocument : ofText name text with e | document
    · rw [hdocument] at h
      cases h
    · rfl

theorem document?_of_open? {document? : Option ConfigDocument} (h : open? openFile name = .ok document?) :
    ConfigDocument.document? openFile name = document? := by
  have hunbroken := errorOf?_open?_eq_none_iff.mp (by rw [h, errorOf?_ok])
  exact Except.ok.inj ((open?_of_not_broken hunbroken).symm.trans h)

theorem openAll_append (names more : List String) :
    openAll openFile (names ++ more) = (do
      let documents ← openAll openFile names
      let rest ← openAll openFile more
      .ok (documents ++ rest)) := by
  induction names with
  | nil => cases h : openAll openFile more <;> simp [openAll, h, bind, Except.bind]
  | cons name names ih =>
    rw [List.cons_append, openAll, openAll, ih]
    rcases open? openFile name with e | document?
    · rfl
    · rcases openAll openFile names with e | documents
      · rfl
      · cases openAll openFile more <;> simp [bind, Except.bind]

/-- Opening some documents fails with the first error. -/
theorem errorOf?_openAll (openFile : OpenFile) (names : List String) :
    errorOf? (openAll openFile names) = names.findSome? fun name => errorOf? (open? openFile name) := by
  induction names with
  | nil => rfl
  | cons name names ih =>
    rw [openAll, List.findSome?_cons, ← ih]
    cases open? openFile name with
    | error e => rfl
    | ok document? => cases openAll openFile names <;> rfl

theorem openAll_of_not_broken (h : ∀ name ∈ names, ∀ fault, ¬ Broken openFile name fault) :
    openAll openFile names = .ok (names.filterMap (document? openFile)) := by
  induction names with
  | nil => rfl
  | cons name names ih =>
    obtain ⟨hname, hnames⟩ := List.forall_mem_cons.mp h
    rw [openAll, open?_of_not_broken hname, ih hnames, List.filterMap_cons]
    cases document? openFile name <;> rfl

end ConfigDocument

namespace DocumentSet

open ConfigDocument (Broken document? openAll)

variable {config? : Option String} {defaults : List String}

/-- The project configuration that there is, or the empty one. -/
def projectOf (openFile : OpenFile) (config? : Option String) : ConfigDocument :=
  (config?.bind (document? openFile)).getD .empty

/-- **The names of documents in the order in which loading comes to them**: the project configuration, the
defaults, and the custom defaults that the project configuration lists. -/
def listed (openFile : OpenFile) (config? : Option String) (defaults : List String) : List String :=
  config?.toList ++ defaults ++ (projectOf openFile config?).customDefaults

theorem openNamed?_of_not_broken (h : ∀ name ∈ config?, ∀ fault, ¬ Broken openFile name fault) :
    ConfigDocument.openNamed? openFile config? = .ok (config?.bind (document? openFile)) := by
  cases config? with
  | none => rfl
  | some config => exact ConfigDocument.open?_of_not_broken (h config rfl)

/-- **Loading fails like a walk along the names.** -/
theorem errorOf?_load (openFile : OpenFile) (config? : Option String) (defaults : List String) :
    errorOf? (load openFile config? defaults)
      = errorOf? (openAll openFile (listed openFile config? defaults)) := by
  -- once the project configuration is open, the other two groups are one walk after another
  have hrest : ∀ project : ConfigDocument,
      errorOf? (do
        let found ← openAll openFile defaults
        let more ← openAll openFile project.customDefaults
        .ok (⟨project, found, more⟩ : DocumentSet))
      = errorOf? (openAll openFile (defaults ++ project.customDefaults)) := by
    intro project
    rw [ConfigDocument.openAll_append]
    cases openAll openFile defaults with
    | error e => rfl
    | ok found => cases openAll openFile project.customDefaults <;> rfl
  cases config? with
  | none => exact hrest .empty
  | some config =>
    rw [listed, Option.toList_some, List.append_assoc, List.singleton_append, openAll, load]
    by_cases hbroken : ∃ fault, Broken openFile config fault
    · obtain ⟨fault, hbroken⟩ := hbroken
      have herror := errorOf?_eq_some_iff.mp
        (ConfigDocument.errorOf?_open?_eq_some_iff.mpr ⟨fault, hbroken, rfl⟩)
      rw [herror]
      rfl
    · have hopen := ConfigDocument.open?_of_not_broken (not_exists.mp hbroken)
      simp only [hopen]
      refine (hrest (projectOf openFile (some config))).trans ?_
      cases openAll openFile (defaults ++ (projectOf openFile (some config)).customDefaults) <;> rfl

/-- **What there is, is loaded**, if nothing is broken. -/
theorem load_of_not_broken
    (h : ∀ name ∈ listed openFile config? defaults, ∀ fault, ¬ Broken openFile name fault) :
    load openFile config? defaults = .ok ⟨projectOf openFile config?,
      defaults.filterMap (document? openFile),
      (projectOf openFile config?).customDefaults.filterMap (document? openFile)⟩ := by
  simp only [listed, List.forall_mem_append, Option.mem_toList] at h
  obtain ⟨⟨hconfig, hdefaults⟩, hcustom⟩ := h
  exact load_eq_ok_iff.mpr ⟨⟨_, openNamed?_of_not_broken hconfig, rfl⟩,
    ConfigDocument.openAll_of_not_broken hdefaults, ConfigDocument.openAll_of_not_broken hcustom⟩

/-- Loading succeeds if and only if no document is broken. -/
theorem load_eq_ok_iff_not_broken {documents : DocumentSet} : load openFile config? defaults = .ok documents ↔
    (∀ name ∈ listed openFile config? defaults, ∀ fault, ¬ Broken openFile name fault) ∧
      documents = ⟨projectOf openFile config?, defaults.filterMap (document? openFile),
        (projectOf openFile config?).customDefaults.filterMap (document? openFile)⟩ := by
  constructor
  · intro h
    have hnone := errorOf?_load openFile config? defaults
    rw [h, ConfigDocument.errorOf?_openAll, errorOf?_ok, eq_comm, List.findSome?_eq_none_iff] at hnone
    have hunbroken := fun name hname =>
      ConfigDocument.errorOf?_open?_eq_none_iff.mp (hnone name hname)
    rw [load_of_not_broken hunbroken, Except.ok.injEq] at h
    exact ⟨hunbroken, h.symm⟩
  · rintro ⟨hunbroken, rfl⟩
    exact load_of_not_broken hunbroken

/-- **The first broken document ends the loading**, with the fault of its text. -/
theorem load_eq_error_iff {e : ConfigError} : load openFile config? defaults = .error e ↔
    ∃ before name after fault, listed openFile config? defaults = before ++ name :: after ∧
      (∀ earlier ∈ before, ∀ fault, ¬ Broken openFile earlier fault) ∧
      Broken openFile name fault ∧ e = .notParsed name fault := by
  rw [← errorOf?_eq_some_iff, errorOf?_load, ConfigDocument.errorOf?_openAll,
    List.findSome?_eq_some_iff]
  simp only [ConfigDocument.errorOf?_open?_eq_some_iff, ConfigDocument.errorOf?_open?_eq_none_iff]
  constructor
  · rintro ⟨before, name, after, hlisted, ⟨fault, hbroken, he⟩, hbefore⟩
    exact ⟨before, name, after, fault, hlisted, hbefore, hbroken, he⟩
  · rintro ⟨before, name, after, fault, hlisted, hbefore, hbroken, he⟩
    exact ⟨before, name, after, hlisted, ⟨fault, hbroken, he⟩, hbefore⟩

theorem mem_listed_of_asked {name : String} (h : Asked openFile config? defaults name) :
    name ∈ listed openFile config? defaults := by
  simp only [listed, List.mem_append, Option.mem_toList]
  rcases h with hconfig | hdefaults | ⟨config, project, rfl, hproject, hcustom⟩
  · exact .inl (.inl hconfig)
  · exact .inl (.inr hdefaults)
  · right
    rwa [projectOf, Option.bind_some, ConfigDocument.document?_of_open? hproject]

/-- **Absent documents are passed over, and broken ones end the loading.** It fails exactly if some name in
the row holds a text that cannot be read as a document, and the error is that of the first such name.
Otherwise all documents that there are have been loaded, in the order in which they are listed and as often.
Whatever other names hold makes no difference. -/
theorem load_stops_at_first_broken (openFile : OpenFile) (config? : Option String)
    (defaults : List String) :
    let project := projectOf openFile config?
    let names := config?.toList ++ defaults ++ project.customDefaults
    (∀ e, load openFile config? defaults = .error e ↔
      ∃ before name after fault, names = before ++ name :: after ∧
        (∀ earlier ∈ before, ∀ fault, ¬ Broken openFile earlier fault) ∧
        Broken openFile name fault ∧ e = .notParsed name fault) ∧
    (∀ documents, load openFile config? defaults = .ok documents ↔
      (∀ name ∈ names, ∀ fault, ¬ Broken openFile name fault) ∧
        documents = ⟨project, defaults.filterMap (document? openFile),
          project.customDefaults.filterMap (document? openFile)⟩) ∧
    ∀ openFile' : OpenFile,
      (∀ name ∈ names, ∀ text, openFile'.Holds name text ↔ openFile.Holds name text) →
        load openFile' config? defaults = load openFile config? defaults := by
  refine ⟨fun e => load_eq_error_iff, fun documents => load_eq_ok_iff_not_broken, fun openFile' h => ?_⟩
  refine load_congr fun name hasked => Option.ext fun text => ?_
  rw [OpenFile.text?_eq_some_iff, OpenFile.text?_eq_some_iff]
  exact h name (mem_listed_of_asked hasked) text

/-- An absent default and one that breaks off are passed over, although what can be read of it would be
broken. The custom default behind them is broken. What a default lists as a custom default of its own may be
anything. -/
theorem load_stops_at_first_broken_custom :
    let openFile : OpenFile := fun name =>
      match name with
      | "config.yml" => .ok (.ofText "customDefaults: [team.yml, list.yml]")
      | "team.yml" => .ok (.ofText "customDefaults: [hidden.yml]")
      | "cut.yml" => .ok ⟨"general: [".toUTF8, some .isDirectory⟩
      | "list.yml" => .ok (.ofText "[general")
      | _ => .error .notFound
    let load := fun openFile => load openFile (some "config.yml") ["absent.yml", "cut.yml", "team.yml"]
    (∃ fault, load openFile = .error (.notParsed "list.yml" fault)) ∧
      ∀ hidden, load (fun name => if name = "hidden.yml" then hidden else openFile name) = load openFile := by
  intro openFile load
  obtain ⟨herror, -, hcongr⟩ :=
    load_stops_at_first_broken openFile (some "config.yml") ["absent.yml", "cut.yml", "team.yml"]
  have hcustom : (projectOf openFile (some "config.yml")).customDefaults = ["team.yml", "list.yml"] := by
    decide +kernel
  rw [hcustom] at herror hcongr
  constructor
  · have hbefore : ∀ name ∈ ["config.yml", "absent.yml", "cut.yml", "team.yml", "team.yml"],
        errorOf? (ConfigDocument.open? openFile name) = none := by
      decide +kernel
    have hlist : (errorOf? (ConfigDocument.open? openFile "list.yml")).isSome = true := by
      decide +kernel
    obtain ⟨e, he⟩ := Option.isSome_iff_exists.mp hlist
    obtain ⟨fault, hbroken, -⟩ := ConfigDocument.errorOf?_open?_eq_some_iff.mp he
    exact ⟨fault, (herror _).mpr ⟨_, "list.yml", [], fault, rfl, fun earlier hearlier =>
      ConfigDocument.errorOf?_open?_eq_none_iff.mp (hbefore earlier hearlier), hbroken, rfl⟩⟩
  · intro hidden
    refine hcongr _ fun name hname text => ?_
    have hne : name ≠ "hidden.yml" := by
      rintro rfl
      exact absurd hname (by decide)
    rw [OpenFile.Holds, OpenFile.Holds, if_neg hne]

end DocumentSet

end PipelineConfig
