import PipelineConfig.Proofs.DiskTrees
import PipelineConfig.Proofs.Loading
import PipelineConfig.Proofs.PackageScripts

/-!
# Local files behind a guard

To open local files by name should come to the same as to have these files in memory
(`PipelineConfig.Disk.KeptBy`). But in front of the disk there is a guard, which refuses names that look
like the address of something remote, and to it a name looks so if it begins with `http`
(`PipelineConfig.LooksRemote`). In an address a colon and two slashes follow, and no path of a tree is one
(`PipelineConfig.Disk.not_isAddress_pathOf`). A file `http-defaults.yml`, and all that is in a directory
`httpd`, is local and is refused all the same.

So a local file is served if and only if its path does not look remote, and what is made from local files
depends on whether one of the names that are asked for does
(`PipelineConfig.Disk.served_iff_not_looksRemote`). It depends in two ways. A document that is refused
counts as one that is not there, and what is loaded lacks it. A package file that is refused ends the
search for a script with an error, unless the search has come to its end before.
-/

namespace PipelineConfig

/-! ### The guard -/

/-- A name that looks to the guard like the address of something remote. -/
def LooksRemote (name : String) : Prop :=
  "http".toList <+: name.toList

instance (name : String) : Decidable (LooksRemote name) :=
  inferInstanceAs (Decidable ("http".toList <+: name.toList))

/-- A name that is the address of something remote. -/
def IsAddress (name : String) : Prop :=
  "http://".toList <+: name.toList ∨ "https://".toList <+: name.toList

section Guard

variable (disk : OpenFile) {memory : OpenFile} {name : String}

theorem startsWith_http_iff : Text.startsWith "http" name = true ↔ LooksRemote name :=
  List.isPrefixOf_iff_prefix

theorem openLocalFile_of_looksRemote (h : LooksRemote name) :
    ∃ failure, openLocalFile disk name = .error failure := by
  rw [openLocalFile, if_pos (startsWith_http_iff.mpr h)]
  exact ⟨_, rfl⟩

theorem openLocalFile_of_not_looksRemote (h : ¬ LooksRemote name) :
    openLocalFile disk name = disk name := by
  rw [openLocalFile, if_neg (fun hstarts => h (startsWith_http_iff.mp hstarts))]

variable {disk}

theorem openLocalFile_congr (h : disk name = memory name) :
    openLocalFile disk name = openLocalFile memory name := by
  rw [openLocalFile, openLocalFile, h]

theorem text?_openLocalFile_of_looksRemote (h : LooksRemote name) :
    (openLocalFile disk).text? name = none := by
  obtain ⟨failure, hrefused⟩ := openLocalFile_of_looksRemote disk h
  exact OpenFile.text?_of_error hrefused

theorem text?_openLocalFile_of_not_looksRemote (h : ¬ LooksRemote name) :
    (openLocalFile disk).text? name = disk.text? name := by
  rw [OpenFile.text?, OpenFile.text?, openLocalFile_of_not_looksRemote disk h]

end Guard

/-! ### Documents behind the guard -/

section Documents

variable {disk memory : OpenFile} {name : String} {names : List String}

namespace ConfigDocument

theorem open?_openLocalFile_of_looksRemote (h : LooksRemote name) :
    open? (openLocalFile memory) name = .ok none :=
  open?_of_no_text (text?_openLocalFile_of_looksRemote h)

theorem open?_openLocalFile_of_not_looksRemote (h : ¬ LooksRemote name) :
    open? (openLocalFile memory) name = open? memory name :=
  open?_congr (text?_openLocalFile_of_not_looksRemote h)

/-- A document that looks remote might as well not be listed. -/
theorem openAll_openLocalFile_cons (h : LooksRemote name) :
    openAll (openLocalFile memory) (name :: names) = openAll (openLocalFile memory) names := by
  rw [openAll, open?_openLocalFile_of_looksRemote h]
  rcases openAll (openLocalFile memory) names with e | served <;> rfl

/-- Behind the guard there are fewer documents, in the same order. -/
theorem exists_sublist_of_openAll {documents : List ConfigDocument}
    (h : openAll memory names = .ok documents) :
    ∃ served, openAll (openLocalFile memory) names = .ok served ∧ served.Sublist documents := by
  induction names generalizing documents with
  | nil => exact ⟨documents, h, .refl documents⟩
  | cons name names ih =>
    obtain ⟨first?, rest, hfirst, hrest, rfl⟩ := openAll_cons_eq_ok_iff.mp h
    obtain ⟨served, hserved, hsublist⟩ := ih hrest
    by_cases hremote : LooksRemote name
    · exact ⟨served, (openAll_openLocalFile_cons hremote).trans hserved,
        hsublist.trans (List.sublist_append_right _ _)⟩
    · rw [← open?_openLocalFile_of_not_looksRemote hremote] at hfirst
      exact ⟨first?.toList ++ served, openAll_cons_eq_ok_iff.mpr ⟨first?, served, hfirst, hserved, rfl⟩,
        hsublist.append_left _⟩

/-- **No document is missed** behind the guard if and only if none that looks remote has a text. -/
theorem openAll_openLocalFile_eq_ok_iff {documents : List ConfigDocument}
    (h : openAll memory names = .ok documents) :
    openAll (openLocalFile memory) names = .ok documents ↔
      ∀ name ∈ names, LooksRemote name → memory.text? name = none := by
  induction names generalizing documents with
  | nil => exact iff_of_true h nofun
  | cons name names ih =>
    obtain ⟨first?, rest, hfirst, hrest, rfl⟩ := openAll_cons_eq_ok_iff.mp h
    rw [List.forall_mem_cons]
    by_cases hremote : LooksRemote name
    · rw [openAll_openLocalFile_cons hremote]
      rcases htext : memory.text? name with _ | text
      · rw [open?_of_no_text htext] at hfirst
        cases hfirst
        simpa using ih hrest
      · -- the document of this name is one more than what the others can come to
        obtain ⟨document, -, rfl⟩ := map_eq_ok_iff.mp ((open?_of_text htext).symm.trans hfirst)
        obtain ⟨served, hserved, hsublist⟩ := exists_sublist_of_openAll hrest
        refine iff_of_false (fun hsame => ?_) (fun hnone => nomatch hnone.1 hremote)
        obtain rfl := Except.ok.inj (hserved.symm.trans hsame)
        exact absurd hsublist.length_le (by simp)
    · rw [← open?_openLocalFile_of_not_looksRemote hremote] at hfirst
      rw [← ih hrest, openAll_cons_eq_ok_iff]
      constructor
      · rintro ⟨first?', rest', hfirst', hrest', hsame⟩
        obtain rfl := Except.ok.inj (hfirst.symm.trans hfirst')
        exact ⟨fun hremote' => absurd hremote' hremote, List.append_cancel_left hsame ▸ hrest'⟩
      · exact fun hsame => ⟨first?, rest, hfirst, hsame.2, rfl⟩

end ConfigDocument

namespace DocumentSet

variable {config? : Option String} {defaults : List String}

/-- Behind the guard no other names are asked for. -/
theorem asked_of_openLocalFile (h : Asked (openLocalFile memory) config? defaults name) :
    Asked memory config? defaults name := by
  rcases h with h | h | ⟨config, project, hconfig, hopen, hname⟩
  · exact .inl h
  · exact .inr (.inl h)
  · by_cases hremote : LooksRemote config
    · cases (ConfigDocument.open?_openLocalFile_of_looksRemote hremote).symm.trans hopen
    · rw [ConfigDocument.open?_openLocalFile_of_not_looksRemote hremote] at hopen
      exact .inr (.inr ⟨config, project, hconfig, hopen, hname⟩)

theorem load_openLocalFile_congr
    (h : ∀ name, Asked memory config? defaults name → disk.text? name = memory.text? name) :
    load (openLocalFile disk) config? defaults = load (openLocalFile memory) config? defaults := by
  -- what looks remote has no text behind the guard, so there nothing has to be alike
  refine load_congr fun name hasked => ?_
  by_cases hremote : LooksRemote name
  · rw [text?_openLocalFile_of_looksRemote hremote, text?_openLocalFile_of_looksRemote hremote]
  · rw [text?_openLocalFile_of_not_looksRemote hremote, text?_openLocalFile_of_not_looksRemote hremote]
    exact h name (asked_of_openLocalFile hasked)

theorem load_openLocalFile
    (h : ∀ name, Asked memory config? defaults name → LooksRemote name → memory.text? name = none) :
    load (openLocalFile memory) config? defaults = load memory config? defaults := by
  refine load_congr fun name hasked => ?_
  by_cases hremote : LooksRemote name
  · rw [text?_openLocalFile_of_looksRemote hremote, h name hasked hremote]
  · exact text?_openLocalFile_of_not_looksRemote hremote

/-- **The guard does not show in what is loaded** if and only if no document that looks remote is missed,
where a project configuration is not missed that is empty. -/
theorem load_openLocalFile_eq_ok_iff {documents : DocumentSet}
    (h : load memory config? defaults = .ok documents) :
    load (openLocalFile memory) config? defaults = .ok documents ↔
      (∀ config, config? = some config → LooksRemote config → documents.project = .empty) ∧
        ∀ name ∈ defaults ++ documents.project.customDefaults,
          LooksRemote name → memory.text? name = none := by
  obtain ⟨⟨project?, hproject, hsame⟩, hdefaults, hcustom⟩ := load_eq_ok_iff.mp h
  rw [load_eq_ok_iff, List.forall_mem_append]
  refine and_congr ?_ (and_congr (ConfigDocument.openAll_openLocalFile_eq_ok_iff hdefaults)
    (ConfigDocument.openAll_openLocalFile_eq_ok_iff hcustom))
  rcases config? with _ | config
  · exact iff_of_true ⟨project?, hproject, hsame⟩ nofun
  · by_cases hremote : LooksRemote config
    · have hnone : ConfigDocument.openNamed? (openLocalFile memory) (some config) = .ok none :=
        ConfigDocument.open?_openLocalFile_of_looksRemote hremote
      rw [hnone]
      constructor
      · rintro ⟨_, ⟨⟩, hempty⟩ _ - -
        exact hempty
      · exact fun hempty => ⟨none, rfl, hempty config rfl hremote⟩
    · refine iff_of_true ⟨project?, ?_, hsame⟩ ?_
      · exact (ConfigDocument.open?_openLocalFile_of_not_looksRemote hremote).trans hproject
      · rintro _ ⟨⟩ hremote'
        exact absurd hremote' hremote

end DocumentSet

end Documents

/-! ### Scripts of packages behind the guard -/

namespace Checks

variable {memory : OpenFile} {step ref script : String} {paths : List String} {path : String}

/-- A search that fails because of a file that cannot be opened has tried to open this file. -/
theorem openFile_of_packageDeclares_unreadable {failure : IoFailure} {q : String}
    (h : packageDeclares memory (.wrongType step ref) script q = .error (.unreadable path failure)) :
    memory path = .error failure := by
  rw [packageDeclares] at h
  rcases hopen : memory q with failure' | stream
  · rw [hopen] at h
    cases h
    exact hopen
  · simp only [hopen] at h
    split at h
    · cases h
    · split at h <;> cases h

theorem openFile_of_anyPackageDeclares_unreadable {failure : IoFailure}
    (h : anyPackageDeclares memory (.wrongType step ref) script paths =
      .error (.unreadable path failure)) : memory path = .error failure := by
  induction paths with
  | nil => cases h
  | cons q paths ih =>
    rcases hfirst : packageDeclares memory (.wrongType step ref) script q with e | declares
    · rw [anyPackageDeclares_cons_of_error hfirst] at h
      cases h
      exact openFile_of_packageDeclares_unreadable hfirst
    · cases declares with
      | true => rw [anyPackageDeclares_cons_of_true hfirst] at h; cases h
      | false => rw [anyPackageDeclares_cons_of_false hfirst] at h; exact ih h

variable (step ref)

/-- Behind the guard the search fails at a file that looks remote, if it comes to one. -/
theorem anyPackageDeclares_refused (hreached : Reached memory script paths path)
    (hremote : LooksRemote path) :
    ∃ q ∈ paths, ∃ failure, anyPackageDeclares (openLocalFile memory) (.wrongType step ref) script paths =
      .error (.unreadable q failure) := by
  have hrefused {q : String} (hq : LooksRemote q) :
      ∃ failure, packageDeclares (openLocalFile memory) (.wrongType step ref) script q =
        .error (.unreadable q failure) := by
    obtain ⟨failure, hopen⟩ := openLocalFile_of_looksRemote memory hq
    exact ⟨failure, by rw [packageDeclares, hopen]⟩
  -- along the files in front of it, for one of them may be refused before
  obtain ⟨before, after, rfl, hbefore⟩ := hreached
  induction before with
  | nil =>
    obtain ⟨failure, hfails⟩ := hrefused hremote
    exact ⟨path, by simp, failure, anyPackageDeclares_cons_of_error hfails⟩
  | cons q before ih =>
    obtain ⟨⟨horder, hnot⟩, hbefore⟩ := List.forall_mem_cons.mp hbefore
    by_cases hq : LooksRemote q
    · obtain ⟨failure, hfails⟩ := hrefused hq
      exact ⟨q, by simp, failure, anyPackageDeclares_cons_of_error hfails⟩
    · obtain ⟨r, hr, failure, hfails⟩ := ih hbefore
      have hsame : packageDeclares (openLocalFile memory) (.wrongType step ref) script q =
          packageDeclares memory (.wrongType step ref) script q :=
        packageDeclares_congr _ script (openLocalFile_of_not_looksRemote memory hq)
      have hfalse : packageDeclares memory (.wrongType step ref) script q = .ok false :=
        packageDeclares_of_not_declares _ script horder hnot
      refine ⟨r, List.mem_cons_of_mem q hr, failure, ?_⟩
      rw [List.cons_append, anyPackageDeclares_cons_of_false (hsame.trans hfalse), hfails]

/-- **The guard does not show in a search** among files that open if and only if the search comes to no
file that looks remote. -/
theorem anyPackageDeclares_openLocalFile_eq_iff (hopens : ∀ q ∈ paths, ∃ stream, memory q = .ok stream) :
    anyPackageDeclares (openLocalFile memory) (.wrongType step ref) script paths =
        anyPackageDeclares memory (.wrongType step ref) script paths ↔
      ∀ q, Reached memory script paths q → ¬ LooksRemote q := by
  constructor
  · intro hsame q hreached hremote
    -- no error of the search in memory is this one, since there all of the files open
    obtain ⟨r, hr, failure, hfails⟩ := anyPackageDeclares_refused step ref hreached hremote
    obtain ⟨stream, hopen⟩ := hopens r hr
    have hfailure : memory r = .error failure :=
      openFile_of_anyPackageDeclares_unreadable (hsame.symm.trans hfails)
    cases hopen.symm.trans hfailure
  · exact fun h => anyPackageDeclares_congr _ _ fun q hreached =>
      openLocalFile_of_not_looksRemote memory (h q hreached)

end Checks

/-! ### A tree and its files in memory -/

namespace Disk

/-- **An opener has the files of a tree in memory**: it serves each under its path. A directory that has the
name of a package file it opens as the disk does. -/
structure KeptBy (d : Disk) (memory : OpenFile) : Prop where
  file : ∀ {place bytes}, d.entry? place = some (.file bytes) →
    memory (pathOf place) = .ok ⟨bytes, none⟩
  folder : ∀ {place}, place ≠ [] → d.entry? place = some .folder →
    pathOf place ∈ Checks.own d.packagePaths → memory (pathOf place) = d.openFile (pathOf place)

/-- The files of a tree, by the names on their paths. -/
def inMemory (d : Disk) : OpenFile := fun path =>
  match d.entries.lookup (Text.splitOn '/' path) with
  | some (.file bytes) => .ok ⟨bytes, none⟩
  | some .folder => .ok ⟨.empty, some .isDirectory⟩
  | none => .error .notFound

section Tree

variable {d : Disk} (htree : d.IsTree) {memory : OpenFile}

include htree

theorem lookup_splitOn_pathOf {place : Place} {entry : DiskEntry} (hplace : place ≠ [])
    (h : d.entry? place = some entry) :
    d.entries.lookup (Text.splitOn '/' (pathOf place)) = some entry := by
  rw [splitOn_pathOf hplace (htree.named (by rw [h]; rfl)), ← entry?_of_ne_nil hplace, h]

theorem keptBy_inMemory : d.KeptBy d.inMemory where
  file := by
    intro place bytes h
    have hplace : place ≠ [] := by
      rintro rfl
      cases h
    rw [inMemory, lookup_splitOn_pathOf htree hplace h]
  folder := by
    intro place hplace h _
    rw [inMemory, lookup_splitOn_pathOf htree hplace h, openFile_pathOf_folder htree hplace h]

theorem KeptBy.text?_pathOf (hmemory : d.KeptBy memory) {place : Place} {bytes : ByteArray}
    (h : d.entry? place = some (.file bytes)) :
    d.openFile.text? (pathOf place) = memory.text? (pathOf place) := by
  rw [OpenFile.text?_of_ok (fileAt_pathOf htree h).openFile, OpenFile.text?_of_ok (hmemory.file h)]

/-- What is listed as a package file opens from memory as it does on the disk. -/
theorem KeptBy.opens (hmemory : d.KeptBy memory) {path : String}
    (h : path ∈ Checks.own d.packagePaths) :
    d.openFile path = memory path ∧ ∃ stream, memory path = .ok stream := by
  obtain ⟨place, hplace, hentry, rfl⟩ := exists_of_mem_packagePaths (Checks.mem_own_iff.mp h).1
  obtain ⟨entry, hentry⟩ := Option.isSome_iff_exists.mp hentry
  cases entry with
  | file bytes =>
    have hserved := hmemory.file hentry
    exact ⟨(fileAt_pathOf htree hentry).openFile.trans hserved.symm, _, hserved⟩
  | folder =>
    have hsame := hmemory.folder hplace hentry h
    exact ⟨hsame.symm, _, hsame.trans (openFile_pathOf_folder htree hplace hentry)⟩

end Tree

/-- Looking for a script in a working directory is the search among its package files. -/
theorem declaresScript_glob (d : Disk) (typeError : TypeFault → ConditionError) (openFile : OpenFile)
    (script : String) :
    Checks.declaresScript d.glob openFile typeError script =
      Checks.anyPackageDeclares openFile typeError script (Checks.own d.packagePaths) :=
  Checks.declaresScript_eq typeError script (glob_packagePattern d)

theorem not_isAddress_pathOf {place : Place} (hnames : ∀ name ∈ place, IsName name) :
    ¬ IsAddress (pathOf place) := by
  rintro (⟨after, hafter⟩ | ⟨after, hafter⟩)
  · exact pathOf_ne_of_doubled hnames "http:".toList after (by rw [← hafter]; rfl)
  · exact pathOf_ne_of_doubled hnames "https:".toList after (by rw [← hafter]; rfl)

/-- **Which local files are served**: those whose path does not look remote, though no path of a tree is the
address of something remote. Loading gives with local files what it gives with the same files in memory if
no document that looks remote is among those that it asks for; and where loading from memory succeeds, it
gives the same if and only if none that looks remote is missed. A search for a script gives the same if
and only if it comes to no package file whose path looks remote. -/
theorem served_iff_not_looksRemote {d : Disk} (htree : d.IsTree) {memory : OpenFile}
    (hmemory : d.KeptBy memory) :
    (∀ path bytes, d.FileAt path bytes →
      (openLocalFile d.openFile path = .ok ⟨bytes, none⟩ ↔ ¬ LooksRemote path)) ∧
    (∀ place bytes, d.entry? place = some (.file bytes) →
      d.FileAt (pathOf place) bytes ∧ ¬ IsAddress (pathOf place)) ∧
    (∀ config? defaults,
      (∀ name, DocumentSet.Asked memory config? defaults name →
        d.openFile.text? name = memory.text? name) →
      ((∀ name, DocumentSet.Asked memory config? defaults name → LooksRemote name →
          memory.text? name = none) →
        DocumentSet.load (openLocalFile d.openFile) config? defaults =
          DocumentSet.load memory config? defaults) ∧
      ∀ documents, DocumentSet.load memory config? defaults = .ok documents →
        (DocumentSet.load (openLocalFile d.openFile) config? defaults = .ok documents ↔
          (∀ config, config? = some config → LooksRemote config → documents.project = .empty) ∧
            ∀ name ∈ defaults ++ documents.project.customDefaults,
              LooksRemote name → memory.text? name = none)) ∧
    ∀ step ref script,
      Checks.declaresScript d.glob (openLocalFile d.openFile) (.wrongType step ref) script =
          Checks.declaresScript d.glob memory (.wrongType step ref) script ↔
        ∀ path, Checks.Reached memory script (Checks.own d.packagePaths) path →
          ¬ LooksRemote path := by
  refine ⟨fun path bytes hfile => ?served, fun place bytes hentry => ?inTree,
    fun config? defaults halike => ?load, fun step ref script => ?search⟩
  case served =>
    constructor
    · intro hserved hremote
      obtain ⟨failure, hrefused⟩ := openLocalFile_of_looksRemote d.openFile hremote
      cases hrefused.symm.trans hserved
    · exact fun hlocal => (openLocalFile_of_not_looksRemote d.openFile hlocal).trans hfile.openFile
  case inTree =>
    exact ⟨fileAt_pathOf htree hentry, not_isAddress_pathOf (htree.named (by rw [hentry]; rfl))⟩
  case load =>
    rw [DocumentSet.load_openLocalFile_congr halike]
    exact ⟨DocumentSet.load_openLocalFile, fun _ => DocumentSet.load_openLocalFile_eq_ok_iff⟩
  case search =>
    have hguard : Checks.anyPackageDeclares (openLocalFile d.openFile) (.wrongType step ref) script
          (Checks.own d.packagePaths) =
        Checks.anyPackageDeclares (openLocalFile memory) (.wrongType step ref) script
          (Checks.own d.packagePaths) :=
      Checks.anyPackageDeclares_congr _ _ fun path hreached =>
        openLocalFile_congr (hmemory.opens htree hreached.mem).1
    rw [declaresScript_glob, declaresScript_glob, hguard]
    exact Checks.anyPackageDeclares_openLocalFile_eq_iff step ref fun path hpath =>
      (hmemory.opens htree hpath).2

/-- A default document and the package file of a server, which are local and look remote: the document is
missed, and the search for a script breaks off at the package file. -/
theorem served_iff_not_looksRemote_httpd :
    let document := "general: \x7bverbose: true\x7d"
    let package := "\x7b\"scripts\": \x7b\"lint\": \"eslint\"\x7d\x7d"
    let d : Disk := ⟨[(["http-defaults.yml"], .file document.toUTF8), (["httpd"], .folder),
      (["httpd", "package.json"], .file package.toUTF8)]⟩
    openLocalFile d.openFile "httpd/package.json" ≠ .ok ⟨package.toUTF8, none⟩ ∧
      (∃ documents, DocumentSet.load d.inMemory none ["http-defaults.yml"] = .ok documents ∧
        DocumentSet.load (openLocalFile d.openFile) none ["http-defaults.yml"] ≠ .ok documents) ∧
      Checks.declaresScript d.glob (openLocalFile d.openFile) (.wrongType "scan" "npmScript") "lint" ≠
        Checks.declaresScript d.glob d.inMemory (.wrongType "scan" "npmScript") "lint" := by
  intro document package d
  have htree : d.IsTree := isTree_of_entries (by decide) (by decide)
  have hmemory : d.KeptBy d.inMemory := keptBy_inMemory htree
  obtain ⟨hserved, hlocal, hload, hsearch⟩ := served_iff_not_looksRemote htree hmemory
  have hpackage : LooksRemote "httpd/package.json" := by decide
  have hdefaults : LooksRemote "http-defaults.yml" := by decide
  refine ⟨fun h => ?_, ?_, fun h => ?_⟩
  · have hentry : d.entry? ["httpd", "package.json"] = some (.file package.toUTF8) := rfl
    have hpath : pathOf ["httpd", "package.json"] = "httpd/package.json" := by decide
    have hfile : d.FileAt "httpd/package.json" package.toUTF8 := hpath ▸ (hlocal _ _ hentry).1
    exact (hserved _ _ hfile).mp h hpackage
  · have hentry : d.entry? ["http-defaults.yml"] = some (.file document.toUTF8) := rfl
    have halike : ∀ name, DocumentSet.Asked d.inMemory none ["http-defaults.yml"] name →
        d.openFile.text? name = d.inMemory.text? name := by
      rintro name (hnone | hname | ⟨_, _, hnone, -⟩)
      · cases hnone
      · rw [List.mem_singleton.mp hname]
        exact hmemory.text?_pathOf htree hentry
      · cases hnone
    have htext : d.inMemory.text? "http-defaults.yml" = some document := by
      have hopen : d.inMemory "http-defaults.yml" = .ok (.ofText document) := rfl
      rw [OpenFile.text?_of_ok hopen, ByteStream.readText_ofText]
      rfl
    have hloads : (DocumentSet.load d.inMemory none ["http-defaults.yml"]).toOption.isSome = true := by
      decide +kernel
    rcases hdocuments : DocumentSet.load d.inMemory none ["http-defaults.yml"] with e | documents
    · rw [hdocuments] at hloads
      cases hloads
    · refine ⟨documents, rfl, fun hsame => ?_⟩
      have hnone := (((hload _ _ halike).2 documents hdocuments).mp hsame).2 "http-defaults.yml"
        (List.mem_append_left _ (by simp)) hdefaults
      cases htext.symm.trans hnone
  · have hlisted : Checks.own d.packagePaths = ["httpd/package.json"] := by decide
    refine (hsearch "scan" "npmScript" "lint").mp h "httpd/package.json" ?_ hpackage
    rw [hlisted]
    exact Checks.reached_head _ []

end Disk

end PipelineConfig
