import PipelineConfig.File
import PipelineConfig.Text.Blank

/-!
# Files for secrets

Some secrets are put into files, all of them in one directory that is made for the purpose. What is
asked about them is a `SecretFileQuestion`; `SecretShelf` answers out of memory, with the rules
that a disk has for names.
-/

namespace PipelineConfig

/-- What is asked about secret files. -/
inductive SecretFileQuestion
  /-- A new directory. -/
  | makeDirectory
  /-- A new file in a directory, whose name begins with that of a parameter. -/
  | write (directory parameter content : String)
  /-- The end of a directory with all that is in it. -/
  | removeDirectory (directory : String)
  deriving DecidableEq, Repr

/-- The replies to each question; directories and files are answered with their paths. -/
def SecretFileReply : SecretFileQuestion → Type
  | .makeDirectory => Except IoFailure String
  | .write _ _ _ => Except IoFailure String
  | .removeDirectory _ => Except IoFailure Unit

/-- Directories of secret files in memory. -/
structure SecretShelf where
  /-- What the path of the first directory is; more of them have a number behind it. -/
  name : String
  /-- How many directories have been made. -/
  made : Nat
  /-- The directories that are there. -/
  directories : List String
  /-- The files by path, with their directories. -/
  files : List (String × String × String)
  deriving DecidableEq, Repr

namespace SecretShelf

/-- No directories yet. -/
def empty (name : String) : SecretShelf :=
  ⟨name, 0, [], []⟩

/-- How many bytes the end of a name takes that tells files of one parameter apart. -/
def endingSize : Nat := 6

/-- What keeps a parameter from being the beginning of a name: the name leads into a directory that
is not there, it is too long, or it cannot be a name at all. -/
def nameFailure? (parameter : String) : Option IoFailure :=
  if parameter.toList.contains (Char.ofNat 0) then some .notAName
  else
    let names := Text.splitOn '/' parameter
    if names.dropLast.any (fun n => n != "" && n != "." && n != "..") then some .notFound
    else if 255 < ((names.getLast?).getD "").utf8ByteSize + endingSize then some .nameTooLong
    else none

/-- The first of some paths that no file has. -/
def freePath (s : SecretShelf) (path : String) : String :=
  let taken (p : String) : Bool := s.files.any (fun f => f.1 = p)
  if !taken path then path
  else
    let numbered := (List.range (s.files.length + 1)).map (fun n => path ++ "-" ++ toString n)
    (numbered.find? (fun p => !taken p)).getD path

/-- Answer a question. -/
def reply : (q : SecretFileQuestion) → SecretShelf → SecretFileReply q × SecretShelf
  | .makeDirectory, s =>
    let directory := if s.made = 0 then s.name else s.name ++ "-" ++ toString s.made
    (.ok directory, { s with made := s.made + 1, directories := s.directories ++ [directory] })
  | .write directory parameter content, s =>
    if !s.directories.contains directory then (.error .notFound, s)
    else match nameFailure? parameter with
      | some failure => (.error failure, s)
      | none =>
        let path := s.freePath (directory ++ "/" ++ parameter)
        (.ok path, { s with files := s.files ++ [(path, directory, content)] })
  | .removeDirectory directory, s =>
    (.ok (), { s with
      directories := s.directories.filter (fun d => d ≠ directory)
      files := s.files.filter (fun f => f.2.1 ≠ directory) })

/-- The content of the file at a path. -/
def content? (s : SecretShelf) (path : String) : Option String :=
  (s.files.find? (fun f => f.1 = path)).map (fun f => f.2.2)

end SecretShelf

end PipelineConfig
