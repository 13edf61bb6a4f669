import PipelineConfig.Condition.Checks
import PipelineConfig.Proofs.Assoc
import PipelineConfig.Proofs.Segments

/-!
# Scripts of packages

A project may be made of several packages, each with a file that says which scripts it declares. A
script is declared if one of these files declares it, where the files of packages that have only been
installed do not count (`PipelineConfig.Checks.OutsideInstalled`).

The files are looked at one after the other, and the search ends at the first that declares the script. So
it does not matter in which order they are listed as long as all of them are in order, and then it is plain
what is answered (`PipelineConfig.Checks.InOrder`, `PipelineConfig.Checks.Declares`). A file that is not
in order ends the search as well, with an error. It is then decisive what stands in front of the first such
file: a script that is declared there is found, and what is listed behind is not looked at
(`PipelineConfig.Checks.declaresScript_of_manifests`). A file that the search does not come to
(`PipelineConfig.Checks.Reached`) may hold whatever it likes
(`PipelineConfig.Checks.anyPackageDeclares_congr`).
-/

namespace PipelineConfig

namespace Checks

/-! ### Which files count -/

/-- A path that leads through no folder of installed packages. A folder whose name only begins or ends
like theirs is another one. -/
def OutsideInstalled (path : String) : Prop :=
  ¬ Text.IsSegment '/' "node_modules".toList path.toList

theorem isInstalled_iff {path : String} :
    isInstalled path = true ↔ Text.IsSegment '/' "node_modules".toList path.toList := by
  rw [isInstalled, List.contains_iff_mem, Text.splitOn, List.mem_map, ← Text.mem_splitChars_iff]
  constructor
  · rintro ⟨segment, hsegment, hname⟩
    rwa [← hname, String.toList_ofList]
  · exact fun h => ⟨_, h, String.ofList_toList⟩

theorem not_isInstalled_iff {path : String} : (!isInstalled path) = true ↔ OutsideInstalled path := by
  rw [OutsideInstalled, ← isInstalled_iff, Bool.not_eq_true', Bool.not_eq_true]

/-! ### One file -/

section File

variable {openFile openFile' : OpenFile} (typeError : TypeFault → ConditionError) (script : String)
  {path : String} {manifest : Json}

/-- A file holds a JSON text: it opens, and what can be read from it to its end is one. -/
def Holds (openFile : OpenFile) (path : String) (manifest : Json) : Prop :=
  ∃ stream text, openFile path = .ok stream ∧ stream.readText = .ok text ∧
    Json.read? text = some manifest

/-- The scripts of a package file, if it has any. -/
def scripts? (manifest : Json) : Option Json :=
  manifest.asObject?.bind (fun members => Assoc.get? members "scripts")

/-- **A package file is in order**: it holds a JSON text, and its scripts, if there are any, are an
object. -/
def InOrder (openFile : OpenFile) (path : String) : Prop :=
  ∃ manifest, Holds openFile path manifest ∧
    ∀ v, scripts? manifest = some v → ∃ scripts, v = .object scripts

/-- **A package file declares a script**: it holds a JSON text, and its scripts are an object with a
member of that name. -/
def Declares (openFile : OpenFile) (script path : String) : Prop :=
  ∃ manifest scripts, Holds openFile path manifest ∧ scripts? manifest = some (.object scripts) ∧
    script ∈ Assoc.keys scripts

/-- What is looked at in a file that holds a JSON text. -/
theorem packageDeclares_of_holds (h : Holds openFile path manifest) :
    packageDeclares openFile typeError script path =
      match scripts? manifest with
      | none => .ok false
      | some (.object scripts) => .ok (Assoc.contains scripts script)
      | some _ => .error (typeError (.scriptsNotObject path)) := by
  obtain ⟨stream, text, hopen, hread, htree⟩ := h
  rw [packageDeclares, hopen]
  simp only [hread, Except.toOption, Option.bind_some, htree]
  rfl

theorem packageDeclares_of_declares (h : Declares openFile script path) :
    packageDeclares openFile typeError script path = .ok true := by
  obtain ⟨manifest, scripts, hholds, hfound, hmem⟩ := h
  rw [packageDeclares_of_holds typeError script hholds, hfound]
  have hcontains : Assoc.contains scripts script = true := by
    rwa [Assoc.contains, Option.isSome_iff_ne_none, Assoc.get?_ne_none_iff]
  exact congrArg Except.ok hcontains

theorem packageDeclares_of_not_declares (horder : InOrder openFile path)
    (h : ¬ Declares openFile script path) :
    packageDeclares openFile typeError script path = .ok false := by
  obtain ⟨manifest, hholds, hscripts⟩ := horder
  rw [packageDeclares_of_holds typeError script hholds]
  rcases hfound : scripts? manifest with _ | v
  · rfl
  · obtain ⟨scripts, rfl⟩ := hscripts v hfound
    have hcontains : Assoc.contains scripts script = false := by
      rw [Assoc.contains, Option.isSome_eq_false_iff, Option.isNone_iff_eq_none,
        Assoc.get?_eq_none_iff]
      exact fun hmem => h ⟨manifest, scripts, hholds, hfound, hmem⟩
    exact congrArg Except.ok hcontains

/-- A file that holds no JSON text cannot be looked at. -/
theorem packageDeclares_of_not_holds (h : ¬ ∃ manifest, Holds openFile path manifest) :
    ∃ e, packageDeclares openFile typeError script path = .error e := by
  rw [packageDeclares]
  rcases hopen : openFile path with failure | stream
  · exact ⟨.unreadable path failure, rfl⟩
  · rcases hread : stream.readText with failure | text
    · exact ⟨.notParsed path .malformed, by simp only [hread, Except.toOption, Option.bind_none]⟩
    · rcases htree : Json.read? text with _ | manifest
      · exact ⟨.notParsed path .malformed, by simp only [hread, Except.toOption, Option.bind_some, htree]⟩
      · exact absurd ⟨manifest, stream, text, hopen, hread, htree⟩ h

/-- A file that is not in order ends the search with an error. -/
theorem packageDeclares_of_not_inOrder (h : ¬ InOrder openFile path) :
    ∃ e, packageDeclares openFile typeError script path = .error e := by
  by_cases hholds : ∃ manifest, Holds openFile path manifest
  · obtain ⟨manifest, hholds⟩ := hholds
    rw [packageDeclares_of_holds typeError script hholds]
    rcases hfound : scripts? manifest with _ | v
    · exact absurd ⟨manifest, hholds, by simp [hfound]⟩ h
    · cases v with
      | object scripts => exact absurd ⟨manifest, hholds, by simp [hfound]⟩ h
      | _ => exact ⟨_, rfl⟩
  · exact packageDeclares_of_not_holds typeError script hholds

theorem packageDeclares_congr (h : openFile' path = openFile path) :
    packageDeclares openFile' typeError script path = packageDeclares openFile typeError script path := by
  rw [packageDeclares, packageDeclares, h]

end File

/-! ### The search -/

section Search

variable {glob : Glob} {openFile openFile' : OpenFile} {typeError : TypeFault → ConditionError}
  {script path : String} {paths before : List String}

theorem anyPackageDeclares_cons_of_true
    (h : packageDeclares openFile typeError script path = .ok true) :
    anyPackageDeclares openFile typeError script (path :: paths) = .ok true := by
  rw [anyPackageDeclares, h]
  rfl

theorem anyPackageDeclares_cons_of_false
    (h : packageDeclares openFile typeError script path = .ok false) :
    anyPackageDeclares openFile typeError script (path :: paths) =
      anyPackageDeclares openFile typeError script paths := by
  rw [anyPackageDeclares, h]
  rfl

theorem anyPackageDeclares_cons_of_error {e : ConditionError}
    (h : packageDeclares openFile typeError script path = .error e) :
    anyPackageDeclares openFile typeError script (path :: paths) = .error e := by
  rw [anyPackageDeclares, h]
  rfl

/-- **The search comes to a file**: all files listed in front of it are in order and do not declare the
script. -/
def Reached (openFile : OpenFile) (script : String) (paths : List String) (path : String) : Prop :=
  ∃ before after, paths = before ++ path :: after ∧
    ∀ q ∈ before, InOrder openFile q ∧ ¬ Declares openFile script q

theorem Reached.mem (h : Reached openFile script paths path) : path ∈ paths := by
  obtain ⟨before, after, rfl, -⟩ := h
  simp

theorem reached_head (path : String) (paths : List String) :
    Reached openFile script (path :: paths) path :=
  ⟨[], paths, rfl, nofun⟩

theorem Reached.cons {q : String} (h : Reached openFile script paths path) (horder : InOrder openFile q)
    (hnot : ¬ Declares openFile script q) : Reached openFile script (q :: paths) path := by
  obtain ⟨before, after, rfl, hbefore⟩ := h
  exact ⟨q :: before, after, rfl, List.forall_mem_cons.mpr ⟨⟨horder, hnot⟩, hbefore⟩⟩

variable (typeError) (script)

/-- **A script that is declared in front of all files that are not in order is found.** -/
theorem anyPackageDeclares_of_declares (after : List String)
    (horder : ∀ q ∈ before, InOrder openFile q) (hdeclares : ∃ q ∈ before, Declares openFile script q) :
    anyPackageDeclares openFile typeError script (before ++ after) = .ok true := by
  induction before with
  | nil => simp at hdeclares
  | cons q before ih =>
    obtain ⟨hq, hothers⟩ := List.forall_mem_cons.mp horder
    rw [List.cons_append]
    by_cases hfirst : Declares openFile script q
    · exact anyPackageDeclares_cons_of_true (packageDeclares_of_declares typeError script hfirst)
    · rw [anyPackageDeclares_cons_of_false (packageDeclares_of_not_declares typeError script hq hfirst)]
      exact ih hothers (by simpa [hfirst] using hdeclares)

/-- **Files that are in order and do not declare the script** might as well not be listed. -/
theorem anyPackageDeclares_of_not_declares (after : List String)
    (horder : ∀ q ∈ before, InOrder openFile q) (hnone : ∀ q ∈ before, ¬ Declares openFile script q) :
    anyPackageDeclares openFile typeError script (before ++ after) =
      anyPackageDeclares openFile typeError script after := by
  induction before with
  | nil => rfl
  | cons q before ih =>
    obtain ⟨hq, hothers⟩ := List.forall_mem_cons.mp horder
    obtain ⟨hnot, hnone⟩ := List.forall_mem_cons.mp hnone
    rw [List.cons_append,
      anyPackageDeclares_cons_of_false (packageDeclares_of_not_declares typeError script hq hnot),
      ih hothers hnone]

/-- Where all files are in order, the answer is whether one of them declares the script. -/
theorem anyPackageDeclares_of_inOrder (horder : ∀ q ∈ paths, InOrder openFile q) :
    ∃ declared, anyPackageDeclares openFile typeError script paths = .ok declared ∧
      (declared = true ↔ ∃ q ∈ paths, Declares openFile script q) := by
  rw [← List.append_nil paths]
  by_cases hdeclares : ∃ q ∈ paths, Declares openFile script q
  · exact ⟨true, anyPackageDeclares_of_declares typeError script [] horder hdeclares,
      by simpa using hdeclares⟩
  · have hnone : ∀ q ∈ paths, ¬ Declares openFile script q := fun q hq h => hdeclares ⟨q, hq, h⟩
    refine ⟨false, ?_, by simpa using hdeclares⟩
    rw [anyPackageDeclares_of_not_declares typeError script [] horder hnone]
    rfl

/-- What the search does not come to does not matter. -/
theorem anyPackageDeclares_congr (h : ∀ q, Reached openFile script paths q → openFile' q = openFile q) :
    anyPackageDeclares openFile' typeError script paths =
      anyPackageDeclares openFile typeError script paths := by
  induction paths with
  | nil => rfl
  | cons q paths ih =>
    have hfirst : packageDeclares openFile' typeError script q =
        packageDeclares openFile typeError script q :=
      packageDeclares_congr typeError script (h q (reached_head q paths))
    by_cases horder : InOrder openFile q
    · by_cases hdeclares : Declares openFile script q
      · have htrue := packageDeclares_of_declares typeError script hdeclares
        rw [anyPackageDeclares_cons_of_true htrue, anyPackageDeclares_cons_of_true (hfirst.trans htrue)]
      · have hfalse := packageDeclares_of_not_declares typeError script horder hdeclares
        rw [anyPackageDeclares_cons_of_false hfalse,
          anyPackageDeclares_cons_of_false (hfirst.trans hfalse)]
        exact ih fun r hr => h r (hr.cons horder hdeclares)
    · obtain ⟨e, he⟩ := packageDeclares_of_not_inOrder typeError script horder
      rw [anyPackageDeclares_cons_of_error he, anyPackageDeclares_cons_of_error (hfirst.trans he)]

/-- Those of some paths that count. -/
def own (paths : List String) : List String :=
  paths.filter (fun path => !isInstalled path)

theorem mem_own_iff : path ∈ own paths ↔ path ∈ paths ∧ OutsideInstalled path := by
  rw [own, List.mem_filter, not_isInstalled_iff]

theorem declaresScript_eq (h : glob packagePattern = .ok paths) :
    declaresScript glob openFile typeError script =
      anyPackageDeclares openFile typeError script (own paths) := by
  rw [declaresScript, expand, h]
  rfl

/-- Files of installed packages are not opened, so it does not matter what would be in them. -/
theorem declaresScript_congr (h : ∀ path, OutsideInstalled path → openFile' path = openFile path) :
    declaresScript glob openFile' typeError script = declaresScript glob openFile typeError script := by
  rcases hglob : glob packagePattern with failure | paths
  · rw [declaresScript, declaresScript, expand, hglob]
    rfl
  · rw [declaresScript_eq typeError script hglob, declaresScript_eq typeError script hglob]
    exact anyPackageDeclares_congr typeError script fun path hreached =>
      h path (mem_own_iff.mp hreached.mem).2

/-- **The search for a script among packages.** Where every listed file that counts is in order, it answers
whether one of them declares the script, in whatever order they are listed. Files of installed packages
are not opened. And where a file that counts is not in order, the first such file makes the search fail
exactly if no file that counts declares the script in front of it; else the script is found. -/
theorem declaresScript_of_manifests (glob : Glob) (openFile : OpenFile) (paths : List String)
    (hglob : glob packagePattern = .ok paths) :
    ((∀ path ∈ paths, OutsideInstalled path → InOrder openFile path) →
      ∃ declared, declaresScript glob openFile typeError script = .ok declared ∧
        (declared = true ↔
          ∃ path ∈ paths, OutsideInstalled path ∧ Declares openFile script path)) ∧
    (∀ openFile' : OpenFile, (∀ path, OutsideInstalled path → openFile' path = openFile path) →
      declaresScript glob openFile' typeError script =
        declaresScript glob openFile typeError script) ∧
    ∀ before path after, paths = before ++ path :: after →
      OutsideInstalled path → ¬ InOrder openFile path →
      (∀ q ∈ before, OutsideInstalled q → InOrder openFile q) →
      ((∃ e, declaresScript glob openFile typeError script = .error e) ↔
        ¬ ∃ q ∈ before, OutsideInstalled q ∧ Declares openFile script q) ∧
      ((∃ q ∈ before, OutsideInstalled q ∧ Declares openFile script q) →
        declaresScript glob openFile typeError script = .ok true) := by
  have hsearch : declaresScript glob openFile typeError script =
      anyPackageDeclares openFile typeError script (own paths) :=
    declaresScript_eq typeError script hglob
  refine ⟨fun horder => ?_, fun openFile' h => declaresScript_congr typeError script h, ?_⟩
  · have hown : ∀ q ∈ own paths, InOrder openFile q := by
      intro q hq
      obtain ⟨hmem, houtside⟩ := mem_own_iff.mp hq
      exact horder q hmem houtside
    obtain ⟨declared, hanswer, hiff⟩ := anyPackageDeclares_of_inOrder typeError script hown
    refine ⟨declared, hsearch.trans hanswer, ?_⟩
    simp only [hiff, mem_own_iff, and_assoc]
  · rintro before path after rfl houtside hfaulty horder
    have hown : own (before ++ path :: after) = own before ++ path :: own after := by
      have hpath : (!isInstalled path) = true := not_isInstalled_iff.mpr houtside
      simp [own, hpath]
    have hbefore : ∀ q ∈ own before, InOrder openFile q := by
      intro q hq
      obtain ⟨hmem, houtside⟩ := mem_own_iff.mp hq
      exact horder q hmem houtside
    rw [hown] at hsearch
    have hfound (h : ∃ q ∈ before, OutsideInstalled q ∧ Declares openFile script q) :
        declaresScript glob openFile typeError script = .ok true := by
      obtain ⟨q, hq, houtside, hdeclares⟩ := h
      rw [hsearch]
      exact anyPackageDeclares_of_declares typeError script _ hbefore
        ⟨q, mem_own_iff.mpr ⟨hq, houtside⟩, hdeclares⟩
    refine ⟨⟨?_, ?_⟩, hfound⟩
    · rintro ⟨e, he⟩ h
      rw [hfound h] at he
      cases he
    · intro hnone
      have hnone' : ∀ q ∈ own before, ¬ Declares openFile script q := by
        intro q hq hdeclares
        obtain ⟨hmem, houtside⟩ := mem_own_iff.mp hq
        exact hnone ⟨q, hmem, houtside, hdeclares⟩
      obtain ⟨e, he⟩ := packageDeclares_of_not_inOrder typeError script hfaulty
      refine ⟨e, ?_⟩
      rw [hsearch, anyPackageDeclares_of_not_declares typeError script _ hbefore hnone']
      exact anyPackageDeclares_cons_of_error he

/-- A folder whose name only ends like that of installed packages: its file counts, and declares the
script. Behind a file that is missing it is not looked at. -/
theorem declaresScript_of_manifests_misnamed :
    let installed := "node_modules/a/package.json"
    let mine := "my_node_modules/package.json"
    let missing := "b/package.json"
    let openFile : OpenFile := fun path =>
      if path = mine then .ok (.ofText "\x7b\"scripts\": \x7b\"lint\": null\x7d\x7d")
      else .error .notFound
    let search (paths : List String) : Verdict :=
      declaresScript (fun _ => .ok paths) openFile (.wrongType "scan" "npmScript") "lint"
    search [installed, mine] = .ok true ∧ ∃ e, search [installed, missing, mine] = .error e := by
  intro installed mine missing openFile search
  have hinstalled : ¬ OutsideInstalled installed := fun h =>
    absurd (not_isInstalled_iff.mpr h) (by decide)
  have hmine : OutsideInstalled mine := not_isInstalled_iff.mp (by decide)
  have hmissing : OutsideInstalled missing := not_isInstalled_iff.mp (by decide)
  have hkeys : (((Json.read? "\x7b\"scripts\": \x7b\"lint\": null\x7d\x7d").bind scripts?).bind
      Json.asObject?).map Assoc.keys = some ["lint"] := by decide +kernel
  obtain ⟨scripts, hscripts, hkeys⟩ := Option.map_eq_some_iff.mp hkeys
  obtain ⟨v, hv, hobject⟩ := Option.bind_eq_some_iff.mp hscripts
  obtain ⟨manifest, hread, hfound⟩ := Option.bind_eq_some_iff.mp hv
  obtain rfl : v = .object scripts := by
    cases v <;> cases hobject
    rfl
  have hholds : Holds openFile mine manifest := ⟨_, _, if_pos rfl, ByteStream.readText_ofText _, hread⟩
  constructor
  · have horder : ∀ path ∈ [installed, mine], OutsideInstalled path → InOrder openFile path := by
      intro path hpath houtside
      simp only [List.mem_cons, List.not_mem_nil, or_false] at hpath
      rcases hpath with rfl | rfl
      · exact absurd houtside hinstalled
      · exact ⟨manifest, hholds, fun v hv => ⟨scripts, Option.some.inj (hv.symm.trans hfound)⟩⟩
    have hdeclares : Declares openFile "lint" mine :=
      ⟨manifest, scripts, hholds, hfound, by simp [hkeys]⟩
    obtain ⟨declared, hanswer, hiff⟩ := (declaresScript_of_manifests
      (.wrongType "scan" "npmScript") "lint" (fun _ => .ok [installed, mine]) openFile _ rfl).1 horder
    rw [hiff.mpr ⟨mine, by simp, hmine, hdeclares⟩] at hanswer
    exact hanswer
  · have hfaulty : ¬ InOrder openFile missing := by
      rintro ⟨manifest, ⟨stream, text, hopen, -, -⟩, -⟩
      cases hopen
    have hnone : ∀ q ∈ [installed], ¬ OutsideInstalled q := by simpa using hinstalled
    refine ((declaresScript_of_manifests (.wrongType "scan" "npmScript") "lint"
      (fun _ => .ok [installed, missing, mine]) openFile _ rfl).2.2 [installed] missing [mine]
      rfl hmissing hfaulty fun q hq houtside => absurd houtside (hnone q hq)).1.mpr ?_
    rintro ⟨q, hq, houtside, -⟩
    exact hnone q hq houtside

end Search

end Checks

end PipelineConfig
