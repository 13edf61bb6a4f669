import PipelineConfig.Condition.Checks
import PipelineConfig.Disk.Glob
import PipelineConfig.Proofs.Segments

/-!
# Trees of files

A working directory is a tree if all that is in it stands in a directory and has a name that a path can
write (`PipelineConfig.Disk.IsTree`). What stands at a place of a tree has a path then, the names that lead
there with slashes between them (`PipelineConfig.Disk.pathOf`), and this path leads to the place
(`PipelineConfig.Disk.spot_pathOf`): every step of it finds the directory that the step before has led
to. Without the names being such as a path can write, a file would be found elsewhere under its path, or not
at all.

When package files are looked for in a tree, what is found are the paths of all that has this name,
whatever the case of its letters and whether it is a file or not
(`PipelineConfig.Disk.glob_packagePattern`).
-/

namespace PipelineConfig

namespace Disk

/-! ### Places and their paths -/

/-- The path of a place: the names that lead there, with slashes between them. -/
def pathOf (place : Place) : String :=
  "/".intercalate place

/-- A name that a path can write: one step of the path is taken by it, and the step goes down. -/
structure IsName (name : String) : Prop where
  ne_empty : name ≠ ""
  ne_here : name ≠ "."
  ne_up : name ≠ ".."
  slash_notMem : '/' ∉ name.toList
  nul_notMem : Char.ofNat 0 ∉ name.toList
  size_le : name.utf8ByteSize ≤ maxName

/-- **A tree**: every name in it is one that a path can write, and what is there stands in a directory. -/
structure IsTree (d : Disk) : Prop where
  named : ∀ {place}, (d.entry? place).isSome → ∀ name ∈ place, IsName name
  nested : ∀ {place name}, (d.entry? (place ++ [name])).isSome → d.entry? place = some .folder

instance (name : String) : Decidable (IsName name) :=
  decidable_of_iff (name ≠ "" ∧ name ≠ "." ∧ name ≠ ".." ∧ '/' ∉ name.toList ∧
      Char.ofNat 0 ∉ name.toList ∧ name.utf8ByteSize ≤ maxName)
    ⟨fun ⟨h₁, h₂, h₃, h₄, h₅, h₆⟩ => ⟨h₁, h₂, h₃, h₄, h₅, h₆⟩,
      fun h => ⟨h.ne_empty, h.ne_here, h.ne_up, h.slash_notMem, h.nul_notMem, h.size_le⟩⟩

theorem entry?_of_ne_nil {d : Disk} {place : Place} (h : place ≠ []) :
    d.entry? place = d.entries.lookup place :=
  if_neg (by simpa using h)

theorem isSome_entry?_iff {d : Disk} {place : Place} :
    (d.entry? place).isSome ↔ place = [] ∨ ∃ entry ∈ d.entries, entry.1 = place := by
  by_cases h : place = []
  · subst h
    exact iff_of_true rfl (.inl rfl)
  · simp only [entry?_of_ne_nil h, List.lookup_isSome_iff, beq_iff_eq, h, false_or, eq_comm (a := place)]

/-- Entry by entry it can be made sure that a working directory is a tree. -/
theorem isTree_of_entries {d : Disk} (hnamed : ∀ entry ∈ d.entries, ∀ name ∈ entry.1, IsName name)
    (hnested : ∀ entry ∈ d.entries, d.isFolderAt (.inside entry.1.dropLast) = true) : d.IsTree where
  named := by
    intro place h
    rcases isSome_entry?_iff.mp h with rfl | ⟨entry, hentry, rfl⟩
    · simp
    · exact hnamed entry hentry
  nested := by
    intro place name h
    rcases isSome_entry?_iff.mp h with h | ⟨entry, hentry, hplace⟩
    · simp at h
    · have hfolder := hnested entry hentry
      rw [hplace, List.dropLast_concat, isFolderAt] at hfolder
      split at hfolder
      · assumption
      · cases hfolder

/-- **The file at a path**: the path leads to a place inside, and at this place there is a file of these
bytes. -/
def FileAt (d : Disk) (path : String) (bytes : ByteArray) : Prop :=
  ∃ place, d.spot path = .ok (.inside place) ∧ d.entry? place = some (.file bytes)

theorem pathOf_cons {name : String} {place : Place} (h : place ≠ []) :
    pathOf (name :: place) = name ++ "/" ++ pathOf place :=
  String.intercalate_cons_of_ne_nil h

/-- A path comes apart into the names that it is put together from. -/
theorem splitOn_pathOf {place : Place} (hplace : place ≠ []) (hnames : ∀ name ∈ place, IsName name) :
    Text.splitOn '/' (pathOf place) = place :=
  Text.splitOn_intercalate hplace fun name hname => (hnames name hname).slash_notMem

/-- The path of a place has no two slashes behind one another, so it is not the address of something
remote. -/
theorem pathOf_ne_of_doubled {place : Place} (hnames : ∀ name ∈ place, IsName name)
    (before after : List Char) : (pathOf place).toList ≠ before ++ '/' :: '/' :: after := by
  intro hdoubled
  by_cases hplace : place = []
  · rw [hplace, pathOf, String.intercalate_nil] at hdoubled
    simp at hdoubled
  · have hsegment : "" ∈ Text.splitOn '/' (pathOf place) := by
      rw [Text.splitOn, Text.splitChars_eq_splitOn, hdoubled, List.mem_map]
      refine ⟨[], (Text.mem_splitOn_append_cons '/').mpr (.inr ?_), rfl⟩
      simp [List.splitOn_cons_eq_if_modifyHead]
    rw [splitOn_pathOf hplace hnames] at hsegment
    exact (hnames "" hsegment).ne_empty rfl

theorem nul_notMem_pathOf {place : Place} (hnames : ∀ name ∈ place, IsName name) :
    Char.ofNat 0 ∉ (pathOf place).toList := by
  induction place with
  | nil => simp [pathOf]
  | cons name place ih =>
    obtain ⟨hname, hnames⟩ := List.forall_mem_cons.mp hnames
    by_cases hplace : place = []
    · rw [hplace, pathOf, String.intercalate_singleton]
      exact hname.nul_notMem
    · have hslash : Char.ofNat 0 ∉ "/".toList := by decide
      rw [pathOf_cons hplace, String.toList_append, String.toList_append, List.mem_append,
        List.mem_append, not_or, not_or]
      exact ⟨⟨hname.nul_notMem, hslash⟩, ih hnames⟩

theorem pathOf_ne_empty {name : String} (place : Place) (hname : IsName name) :
    pathOf (name :: place) ≠ "" := by
  by_cases hplace : place = []
  · rw [hplace, pathOf, String.intercalate_singleton]
    exact hname.ne_empty
  · rw [pathOf_cons hplace, Ne, String.append_eq_empty_iff, String.append_eq_empty_iff]
    exact fun h => hname.ne_empty h.1.1

/-! ### Where the paths of a tree lead -/

section Tree

variable {d : Disk} (htree : d.IsTree)

include htree

/-- One step of a path goes down to what is there. -/
theorem step_of_entry {place : Place} {name : String} (h : (d.entry? (place ++ [name])).isSome) :
    d.step (.inside place) name = .ok (.inside (place ++ [name])) := by
  have hname : IsName name := htree.named h name (by simp)
  have hfolder : d.isFolderAt (.inside place) = true := by
    rw [isFolderAt, htree.nested h]
  have hsize : ¬ maxName < name.utf8ByteSize := Nat.not_lt.mpr hname.size_le
  simp only [step, hfolder, Bool.not_true, Bool.false_eq_true, if_false, hname.ne_empty, hname.ne_here,
    or_self, hname.ne_up, hsize, h, if_true]

/-- What leads to something that is there is itself there. -/
theorem isSome_entry?_of_append {place : Place} (names : List String)
    (h : (d.entry? (place ++ names)).isSome) : (d.entry? place).isSome := by
  induction names generalizing place with
  | nil => rwa [List.append_nil] at h
  | cons name names ih =>
    rw [List.append_cons] at h
    rw [htree.nested (ih h)]
    rfl

/-- The names that lead to what is there lead to it, from wherever one starts on the way. -/
theorem follow_of_entry {place : Place} {names : List String}
    (h : (d.entry? (place ++ names)).isSome) :
    d.follow (.inside place) names = .ok (.inside (place ++ names)) := by
  induction names generalizing place with
  | nil => rw [follow, List.append_nil]
  | cons name names ih =>
    rw [List.append_cons] at h
    have hstep := step_of_entry htree (isSome_entry?_of_append htree names h)
    rw [List.append_cons, follow, hstep]
    exact ih h

/-- **The path of a place leads to the place.** -/
theorem spot_pathOf {place : Place} (hplace : place ≠ []) (h : (d.entry? place).isSome) :
    d.spot (pathOf place) = .ok (.inside place) := by
  have hnames : ∀ name ∈ place, IsName name := htree.named h
  obtain ⟨first, rest, rfl⟩ := List.exists_cons_of_ne_nil hplace
  have hfirst : IsName first := hnames first (by simp)
  have hempty : (pathOf (first :: rest)).isEmpty = false := by
    simpa using pathOf_ne_empty rest hfirst
  have hnul : (pathOf (first :: rest)).toList.contains (Char.ofNat 0) = false := by
    simpa using nul_notMem_pathOf hnames
  have hfollow : d.follow (.inside []) (first :: rest) = .ok (.inside (first :: rest)) :=
    follow_of_entry htree h
  rw [spot, hempty, hnul, splitOn_pathOf hplace hnames]
  simp only [Bool.false_eq_true, if_false]
  -- an empty name in front would be a slash in front, and lead outside
  split
  · rename_i names heq
    exact absurd (List.cons.inj heq).1 hfirst.ne_empty
  · exact hfollow

theorem fileAt_pathOf {place : Place} {bytes : ByteArray} (h : d.entry? place = some (.file bytes)) :
    d.FileAt (pathOf place) bytes := by
  have hplace : place ≠ [] := by
    rintro rfl
    cases h
  exact ⟨place, spot_pathOf htree hplace (by rw [h]; rfl), h⟩

end Tree

theorem FileAt.openFile {d : Disk} {path : String} {bytes : ByteArray} (h : d.FileAt path bytes) :
    d.openFile path = .ok ⟨bytes, none⟩ := by
  obtain ⟨place, hspot, hentry⟩ := h
  rw [Disk.openFile, hspot]
  simp only [bind, Except.bind, hentry]

theorem openFile_pathOf_folder {d : Disk} (htree : d.IsTree) {place : Place} (hplace : place ≠ [])
    (h : d.entry? place = some .folder) :
    d.openFile (pathOf place) = .ok ⟨.empty, some .isDirectory⟩ := by
  have hspot : d.spot (pathOf place) = .ok (.inside place) := spot_pathOf htree hplace (by rw [h]; rfl)
  rw [openFile, hspot]
  simp only [bind, Except.bind, h]

/-! ### Package files -/

/-- Whether a name is that of a package file, but for the case of its letters. -/
def isPackageName (name : String) : Bool :=
  Text.lowerAscii name = "package.json"

/-- The paths of what has the name of a package file, in the order in which a walk meets it. -/
def packagePaths (d : Disk) : List String :=
  ((d.below []).filter (fun place => isPackageName (place.getLast?.getD ""))).map pathOf

/-- What is listed is there. -/
theorem exists_of_mem_packagePaths {d : Disk} {path : String} (h : path ∈ d.packagePaths) :
    ∃ place, place ≠ [] ∧ (d.entry? place).isSome ∧ path = pathOf place := by
  obtain ⟨place, hplace, rfl⟩ := List.mem_map.mp h
  obtain ⟨hentry, hbelow⟩ := List.mem_filter.mp (List.mem_filter.mp hplace).1
  have hne : place ≠ [] := by
    rintro rfl
    simp at hbelow
  obtain ⟨entry, hmem, rfl⟩ := List.mem_map.mp hentry
  exact ⟨entry.1, hne, isSome_entry?_iff.mpr (.inr ⟨entry, hmem, rfl⟩), rfl⟩

theorem matchesName_map_char (ds cs : List Char) :
    Pattern.matchesName (ds.map .char) cs = decide (cs.map Char.toLower = ds.map Char.toLower) := by
  induction ds generalizing cs with
  | nil => cases cs <;> simp [Pattern.matchesName]
  | cons d ds ih =>
    cases cs with
    | nil => simp [Pattern.matchesName]
    | cons c cs => simp [Pattern.matchesName, ih, Pattern.admits, Pattern.sameChar]

theorem matchesName_package (name : String) :
    Pattern.matchesName ("package.json".toList.map .char) name.toList = isPackageName name := by
  have hlower : "package.json".toList.map Char.toLower = "package.json".toList := by decide
  rw [matchesName_map_char, isPackageName, Text.lowerAscii, hlower, decide_eq_decide]
  constructor
  · exact fun h => by rw [h, String.ofList_toList]
  · exact fun h => by rw [← h, String.toList_ofList]

theorem walk_here (d : Disk) :
    d.walk "." = (d.below []).map (fun place => (pathOf place, place.getLast?.getD "")) := by
  have hspot : d.spot "." = .ok (.inside []) := rfl
  rw [walk, hspot]
  simp only [List.length_nil, List.drop_zero]
  rfl

/-- A pattern of any directories and a name finds what has such a name, anywhere below. -/
theorem search_anyFolders (d : Disk) {part : List PatternToken} (hpart : Pattern.isRecursive part = false)
    {path : String} (hfolder : d.isFolder path = true) :
    d.search false [[.anyFolders], part] path =
      ((d.walk path).filter (fun found => Pattern.matchesName part found.2.toList)).map Prod.fst := by
  have hafter : afterRecursive [part] = [part] := by
    rw [afterRecursive, hpart]
    rfl
  have hname : Pattern.name? [.anyFolders] = none := rfl
  have hrecursive : Pattern.isRecursive [.anyFolders] = true := rfl
  have hfound (next : String) : d.search false [] next = [next] := by
    rw [search, Disk.found]
    rfl
  -- behind the part for any directories only one part is left, so what matches it has been found
  rw [search, hname]
  simp only [hfolder, hrecursive, Bool.not_true, Bool.false_eq_true, if_false, if_true]
  split
  · rename_i hnone
    rw [hafter] at hnone
    cases hnone
  · rename_i last rest hlast
    obtain ⟨rfl, rfl⟩ := List.cons.inj (hafter.symm.trans hlast)
    induction d.walk path with
    | nil => rfl
    | cons found others ih =>
      rw [List.flatMap_cons, ih, List.filter_cons, hfound]
      split <;> rfl

/-- **Looking for package files** finds the paths of all that has this name. -/
theorem glob_packagePattern (d : Disk) : d.glob Checks.packagePattern = .ok d.packagePaths := by
  have hread : d.glob Checks.packagePattern =
      .ok (d.search false [[.anyFolders], "package.json".toList.map .char] ".") := rfl
  rw [hread, search_anyFolders d rfl rfl, walk_here, packagePaths, List.filter_map, List.map_map]
  simp only [Function.comp_def, matchesName_package]

end Disk

end PipelineConfig
