import PipelineConfig.Document.Loading
import PipelineConfig.Proofs.FirstError

/-!
# What loading looks at

Loading opens the project configuration, the default documents and the custom defaults that the project
configuration lists, and nothing else (`PipelineConfig.DocumentSet.Asked`). Of an opener only the texts
behind these names matter (`PipelineConfig.OpenFile.text?`): a name that cannot be opened and a stream that
breaks off come to the same thing. So two openers with the same texts there load the same documents, or
fail alike (`PipelineConfig.DocumentSet.load_congr`). Which names are asked for depends on the opener
itself, for some of them stand in a document that it opens.
-/

namespace PipelineConfig

/-- The text behind a name, if there is one that can be read to its end. -/
def OpenFile.text? (openFile : OpenFile) (name : String) : Option String :=
  (openFile name).toOption.bind (fun stream => stream.readText.toOption)

theorem OpenFile.text?_of_ok {openFile : OpenFile} {name : String} {stream : ByteStream}
    (h : openFile name = .ok stream) : openFile.text? name = stream.readText.toOption := by
  rw [text?, h]
  rfl

theorem OpenFile.text?_of_error {openFile : OpenFile} {name : String} {failure : IoFailure}
    (h : openFile name = .error failure) : openFile.text? name = none := by
  rw [text?, h]
  rfl

variable {openFile openFile' : OpenFile}

namespace ConfigDocument

/-- A text that is no document is one that cannot be parsed. -/
theorem ofText_ne_unreadable (document text name : String) (failure : IoFailure) :
    ofText document text ≠ .error (.unreadable name failure) := by
  rw [ofText]
  split
  · exact nofun
  · split <;> exact nofun

/-- Of what is opened only the text matters. -/
theorem open?_eq (openFile : OpenFile) (name : String) :
    open? openFile name = match openFile.text? name with
      | none => .ok none
      | some text => (ofText name text).map some := by
  rcases hopen : openFile name with failure | stream
  · rw [OpenFile.text?_of_error hopen, open?, hopen]
  · rw [OpenFile.text?_of_ok hopen, open?, hopen]
    rcases hread : stream.readText with failure | text
    · simp only [ofStream, hread, Except.toOption]
    · simp only [ofStream, hread, Except.toOption]
      rcases htext : ofText name text with e | document
      · cases e with
        | unreadable name' failure => exact absurd htext (ofText_ne_unreadable name text name' failure)
        | _ => rfl
      · rfl

theorem open?_of_text {name text : String} (h : openFile.text? name = some text) :
    open? openFile name = (ofText name text).map some := by
  rw [open?_eq, h]

theorem open?_of_no_text {name : String} (h : openFile.text? name = none) :
    open? openFile name = .ok none := by
  rw [open?_eq, h]

theorem open?_congr {name : String} (h : openFile'.text? name = openFile.text? name) :
    open? openFile' name = open? openFile name := by
  rw [open?_eq, open?_eq, h]

/-- The document of a name that may not be given. -/
def openNamed? (openFile : OpenFile) : Option String → Except ConfigError (Option ConfigDocument)
  | some name => open? openFile name
  | none => .ok none

theorem openAll_cons_eq_ok_iff {name : String} {names : List String} {documents : List ConfigDocument} :
    openAll openFile (name :: names) = .ok documents ↔
      ∃ first? rest, open? openFile name = .ok first? ∧ openAll openFile names = .ok rest ∧
        documents = first?.toList ++ rest := by
  rw [openAll]
  simp only [bind_eq_ok_iff, Except.ok.injEq]
  constructor
  · rintro ⟨first?, hfirst, rest, hrest, rfl⟩
    exact ⟨first?, rest, hfirst, hrest, rfl⟩
  · rintro ⟨first?, rest, hfirst, hrest, rfl⟩
    exact ⟨first?, hfirst, rest, hrest, rfl⟩

theorem openAll_congr {names : List String}
    (h : ∀ name ∈ names, openFile'.text? name = openFile.text? name) :
    openAll openFile' names = openAll openFile names := by
  induction names with
  | nil => rfl
  | cons name names ih =>
    obtain ⟨hname, hnames⟩ := List.forall_mem_cons.mp h
    rw [openAll, openAll, open?_congr hname, ih hnames]

end ConfigDocument

namespace DocumentSet

/-- **The names that loading asks for**: the project configuration, the defaults, and the custom defaults
that the project configuration lists, if it is there. -/
def Asked (openFile : OpenFile) (config? : Option String) (defaults : List String) (name : String) :
    Prop :=
  config? = some name ∨ name ∈ defaults ∨
    ∃ config project, config? = some config ∧
      ConfigDocument.open? openFile config = .ok (some project) ∧ name ∈ project.customDefaults

/-- **Loading is decided by the texts behind the names that it asks for.** -/
theorem load_congr {config? : Option String} {defaults : List String}
    (h : ∀ name, Asked openFile config? defaults name → openFile'.text? name = openFile.text? name) :
    load openFile' config? defaults = load openFile config? defaults := by
  have hdefaults : ConfigDocument.openAll openFile' defaults = ConfigDocument.openAll openFile defaults :=
    ConfigDocument.openAll_congr fun name hname => h name (.inr (.inl hname))
  cases config? with
  | none =>
    rw [load, load, hdefaults]
    rfl
  | some config =>
    have hconfig : ConfigDocument.open? openFile' config = ConfigDocument.open? openFile config :=
      ConfigDocument.open?_congr (h config (.inl rfl))
    simp only [load, hdefaults, hconfig]
    rcases hproject : ConfigDocument.open? openFile config with e | project?
    · rfl
    · cases project? with
      | none => rfl
      | some project =>
        have hcustom : ConfigDocument.openAll openFile' project.customDefaults =
            ConfigDocument.openAll openFile project.customDefaults :=
          ConfigDocument.openAll_congr fun name hname =>
            h name (.inr (.inr ⟨config, project, rfl, hproject, hname⟩))
        simp only [bind, Except.bind, Option.getD_some, hcustom]

/-- **What has been loaded**, part by part. -/
theorem load_eq_ok_iff {config? : Option String} {defaults : List String} {documents : DocumentSet} :
    load openFile config? defaults = .ok documents ↔
      (∃ project?, ConfigDocument.openNamed? openFile config? = .ok project? ∧
        documents.project = project?.getD .empty) ∧
      ConfigDocument.openAll openFile defaults = .ok documents.defaults ∧
      ConfigDocument.openAll openFile documents.project.customDefaults = .ok documents.customDefaults := by
  have hload : load openFile config? defaults = (do
      let project? ← ConfigDocument.openNamed? openFile config?
      let defaults ← ConfigDocument.openAll openFile defaults
      let customDefaults ← ConfigDocument.openAll openFile (project?.getD .empty).customDefaults
      .ok ⟨project?.getD .empty, defaults, customDefaults⟩) := by
    cases config? <;> rfl
  rw [hload]
  simp only [bind_eq_ok_iff, Except.ok.injEq]
  constructor
  · rintro ⟨project?, hproject, found, hdefaults, more, hcustom, rfl⟩
    exact ⟨⟨project?, hproject, rfl⟩, hdefaults, hcustom⟩
  · rcases documents with ⟨project, found, more⟩
    rintro ⟨⟨project?, hproject, rfl⟩, hdefaults, hcustom⟩
    exact ⟨project?, hproject, found, hdefaults, more, hcustom, rfl⟩

end DocumentSet

end PipelineConfig
