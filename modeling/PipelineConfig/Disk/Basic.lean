import PipelineConfig.File
import PipelineConfig.Text.Blank

/-!
# Directories in memory

A `Disk` is a working directory with everything below it. What is in it is listed by place, which
is the list of the names that lead there, and the list is sorted by place; so what is below a
directory stands together, in the order in which a walk that goes down first meets it.

Names in paths are separated by slashes; `.` stays and `..` leads up. Above the working directory
there is a directory as well, but nothing is known of what is in it.
-/

namespace PipelineConfig

/-- The names that lead from the working directory to a file or a directory. -/
abbrev Place := List String

/-- What stands at a place. -/
inductive DiskEntry
  | file (bytes : ByteArray)
  | folder

/-- A working directory with everything below it, sorted by place. -/
structure Disk where
  entries : List (Place × DiskEntry)

/-- Where a path leads. -/
inductive Spot
  | inside (place : Place)
  /-- A directory outside, of which nothing is known. -/
  | outside
  deriving DecidableEq, Repr

namespace Disk

/-- The empty working directory. -/
def empty : Disk := ⟨[]⟩

/-! ### Entries -/

/-- What stands at a place; at the beginning stands the working directory. -/
def entry? (d : Disk) (place : Place) : Option DiskEntry :=
  if place.isEmpty then some .folder else d.entries.lookup place

/-- Put an entry at its place in a sorted list. -/
def putIn : List (Place × DiskEntry) → Place → DiskEntry → List (Place × DiskEntry)
  | [], place, e => [(place, e)]
  | (q, f) :: rest, place, e =>
    if q < place then (q, f) :: putIn rest place e
    else if q = place then (place, e) :: rest
    else (place, e) :: (q, f) :: rest

/-- Put an entry at a place. -/
def put (d : Disk) (place : Place) (e : DiskEntry) : Disk :=
  ⟨putIn d.entries place e⟩

/-- Put directories at a place and on the way there, where nothing is yet. -/
def makeFolders (d : Disk) (place : Place) : Disk :=
  ((List.range place.length).map (fun n => place.take (n + 1))).foldl (fun d p =>
    if (d.entry? p).isSome then d else d.put p .folder) d

/-- Put a file at a place, with the directories on the way there. -/
def addFile (d : Disk) (place : Place) (bytes : ByteArray) : Disk :=
  (d.makeFolders place.dropLast).put place (.file bytes)

/-- The places below a directory. -/
def below (d : Disk) (folder : Place) : List Place :=
  (d.entries.map Prod.fst).filter (fun p => folder.isPrefixOf p && folder.length < p.length)

/-- The names in a directory. -/
def names (d : Disk) (folder : Place) : List String :=
  ((d.below folder).filter (fun p => p.length = folder.length + 1)).filterMap List.getLast?

/-! ### Paths -/

/-- The longest name in bytes. -/
def maxName : Nat := 255

/-- Whether something is a directory. -/
def isFolderAt (d : Disk) : Spot → Bool
  | .outside => true
  | .inside place =>
    match d.entry? place with
    | some .folder => true
    | _ => false

/-- One step of a path. -/
def step (d : Disk) (spot : Spot) (name : String) : Except IoFailure Spot :=
  if !d.isFolderAt spot then .error .notDirectory
  else if name = "" ∨ name = "." then .ok spot
  else if name = ".." then
    match spot with
    | .inside (first :: rest) => .ok (.inside (first :: rest).dropLast)
    | _ => .ok .outside
  else if maxName < name.utf8ByteSize then .error .nameTooLong
  else match spot with
    | .outside => .error .notFound
    | .inside place =>
      if (d.entry? (place ++ [name])).isSome then .ok (.inside (place ++ [name]))
      else .error .notFound

/-- Where some names lead. -/
def follow (d : Disk) : Spot → List String → Except IoFailure Spot
  | spot, [] => .ok spot
  | spot, name :: rest => do
    let next ← d.step spot name
    follow d next rest

/-- Where a path leads. -/
def spot (d : Disk) (path : String) : Except IoFailure Spot :=
  if path.isEmpty then .error .notFound
  else if path.toList.contains (Char.ofNat 0) then .error .notAName
  else match Text.splitOn '/' path with
    | "" :: rest => d.follow .outside rest
    | names => d.follow (.inside []) names

/-- Whether a path leads somewhere. -/
def leadsOn (d : Disk) (path : String) : Bool :=
  (d.spot path).toOption.isSome

/-- Whether a path leads to a directory. -/
def isFolder (d : Disk) (path : String) : Bool :=
  match d.spot path with
  | .ok spot => d.isFolderAt spot
  | .error _ => false

/-! ### Reading and writing -/

/-- Open a file. A directory opens too, but cannot be read. -/
def openFile (d : Disk) : OpenFile := fun path => do
  match ← d.spot path with
  | .outside => .ok ⟨.empty, some .isDirectory⟩
  | .inside place =>
    match d.entry? place with
    | some (.file bytes) => .ok ⟨bytes, none⟩
    | some .folder => .ok ⟨.empty, some .isDirectory⟩
    | none => .error .notFound

/-- The text of a file, if it is one. -/
def text? (d : Disk) (path : String) : Option String :=
  match d.openFile path with
  | .ok stream => stream.readText.toOption
  | .error _ => none

/-- Write a file anew, in a directory that is there. What is written outside is not kept. -/
def write (d : Disk) (path content : String) : Except IoFailure Disk :=
  match d.spot path with
  | .ok .outside => .error .isDirectory
  | .ok (.inside place) =>
    match d.entry? place with
    | some .folder => .error .isDirectory
    | _ => .ok (d.put place (.file content.toUTF8))
  | .error failure =>
    let names := Text.splitOn '/' path
    match names.getLast?, path.isEmpty || failure.cause != .notFound with
    | some last, false =>
      let parent := match names with
        | "" :: rest => d.follow .outside rest.dropLast
        | names => d.follow (.inside []) names.dropLast
      match parent with
      | .error failure => .error failure
      | .ok parent =>
        if !d.isFolderAt parent then .error .notDirectory
        else if last.isEmpty then .error .isDirectory
        else match parent with
          | .outside => .ok d
          | .inside place => .ok (d.put (place ++ [last]) (.file content.toUTF8))
    | _, _ => .error failure

/-- The working directory of some files by path; those without content are directories. -/
def ofFiles (files : List (String × Option ByteArray)) : Disk :=
  files.foldl (fun d (path, bytes?) =>
    let place := (Text.splitOn '/' path).filter (fun name => !name.isEmpty)
    match bytes? with
    | some bytes => d.addFile place bytes
    | none => d.makeFolders place) .empty

end Disk

end PipelineConfig
