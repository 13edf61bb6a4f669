import PipelineConfig.Condition.Registry
import PipelineConfig.Disk.Basic
import PipelineConfig.Disk.Pattern

/-!
# Finding files by pattern

A pattern is matched part by part, each part against the names in the directories that the parts
before have led to. A part without anything special is not matched at all: the name it writes must
lead on. What is found comes in the order of names, directory by directory; a directory comes
before what is below it. A part for any directories goes through all that is below, itself it
stands for directories only.
-/

namespace PipelineConfig.Disk

/-- A path with a name after it. -/
def under (folder name : String) : String :=
  if folder.isEmpty || folder.toList.getLast? = some '/' then folder ++ name
  else folder ++ "/" ++ name

/-- Whether a path stays in the working directory. -/
def staysHere (path : String) : Bool :=
  (Text.splitOn '/' path).all (· = ".")

/-- The path of a name in a directory; what is in the working directory has no directory in front. -/
def join (folder name : String) : String :=
  if staysHere folder then name else under folder name

/-- What a path leads to, if that may be found: at the end of a pattern with a slash, directories
only. -/
def found (d : Disk) (foldersOnly : Bool) (path : String) : List String :=
  if foldersOnly && !d.isFolder path then [] else [path]

/-- Drop further parts for any directories. -/
def afterRecursive : List (List PatternToken) → List (List PatternToken)
  | [] => []
  | p :: rest => if Pattern.isRecursive p then afterRecursive rest else p :: rest

theorem length_afterRecursive_le (parts : List (List PatternToken)) :
    (afterRecursive parts).length ≤ parts.length := by
  induction parts with
  | nil => simp [afterRecursive]
  | cons p rest ih =>
    unfold afterRecursive
    split
    · exact Nat.le_succ_of_le ih
    · exact Nat.le_refl _

/-- The names in the directory at a path. -/
def namesAt (d : Disk) (path : String) : List String :=
  match d.spot path with
  | .ok (.inside place) => d.names place
  | _ => []

/-- The paths of everything below the directory at a path, each with its own name. -/
def walk (d : Disk) (path : String) : List (String × String) :=
  match d.spot path with
  | .ok (.inside place) =>
    (d.below place).map (fun p =>
      let names := p.drop place.length
      (join path ("/".intercalate names), (names.getLast?).getD ""))
  | _ => []

/-- What the parts of a pattern find from a directory on. -/
def search (d : Disk) (foldersOnly : Bool) : List (List PatternToken) → String → List String
  | [], path => d.found foldersOnly path
  | part :: rest, path =>
    let goOn (next : String) : List String := search d foldersOnly rest next
    match Pattern.name? part with
    | some name =>
      let name := String.ofList name
      let next := join path name
      let leads := if name = "." ∨ name = ".." then d.isFolder path else d.leadsOn next
      if leads then goOn next else []
    | none =>
      if !d.isFolder path then []
      else if Pattern.isRecursive part then
        match _hr : afterRecursive rest with
        | [] => ((d.walk path).map Prod.fst).filter d.isFolder
        | part' :: rest' =>
          (d.walk path).flatMap (fun (next, name) =>
            if Pattern.matchesName part' name.toList then search d foldersOnly rest' next else [])
      else
        let special :=
          if part.head? = some (.char '.') then
            ([".", ".."].filter (fun s => Pattern.matchesName part s.toList)).reverse
          else []
        let matching := (d.namesAt path).filter (fun s => Pattern.matchesName part s.toList)
        special.flatMap (fun s => goOn (under path s))
          ++ matching.flatMap (fun s => goOn (join path s))
termination_by parts => parts.length
decreasing_by
  · simp
  · have h := length_afterRecursive_le rest
    simp only [_hr, List.length_cons] at h ⊢
    omega

/-- The parts of a pattern, each read for itself. -/
def partsOf (pattern : List Char) : Except PatternError (List (List PatternToken)) :=
  let names := Text.splitChars '/' pattern
  let names := if names.getLast? = some [] then names.dropLast else names
  names.mapM Pattern.read

/-- The paths that match a pattern. A pattern that begins with a slash looks from the outside. -/
def glob (d : Disk) : Glob := fun pattern =>
  let cs := pattern.toList
  let (start, relative) := match cs with
    | '/' :: rest => ("/", rest)
    | cs => (".", cs)
  let parts := do
    let _ ← Pattern.read cs
    let parts ← partsOf relative
    .ok (if relative.isEmpty then parts ++ [[]] else parts)
  match parts with
  | .ok [] => .ok []
  | .ok parts => .ok (d.search (cs.getLast? = some '/') parts start)
  | .error e => .error ⟨.invalidInput, e.message⟩

end PipelineConfig.Disk
