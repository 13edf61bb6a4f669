import PipelineConfig.Document.Decoding

/-!
# Loading a set of documents

The project configuration, the default documents and the custom defaults that the project
configuration lists are opened by name. A document that cannot be opened, or not read to its end,
is as good as not there; one that can be read and is no configuration document ends the loading.
Custom defaults that other documents list are not opened.
-/

namespace PipelineConfig

/-- A document that may not be there. -/
def ConfigDocument.open? (openFile : OpenFile) (name : String) :
    Except ConfigError (Option ConfigDocument) :=
  match openFile name with
  | .error _ => .ok none
  | .ok stream =>
    match ConfigDocument.ofStream name stream with
    | .ok d => .ok (some d)
    | .error (.unreadable _ _) => .ok none
    | .error e => .error e

/-- Those of some documents that are there, in order. -/
def ConfigDocument.openAll (openFile : OpenFile) :
    List String → Except ConfigError (List ConfigDocument)
  | [] => .ok []
  | name :: rest => do
    let d? ← ConfigDocument.open? openFile name
    let ds ← openAll openFile rest
    .ok (d?.toList ++ ds)

/-- Load the project configuration, if one is named, the defaults and the custom defaults. -/
def DocumentSet.load (openFile : OpenFile) (config? : Option String) (defaults : List String) :
    Except ConfigError DocumentSet := do
  let project? ← match config? with
    | some name => ConfigDocument.open? openFile name
    | none => .ok none
  let project := project?.getD .empty
  let defaults ← ConfigDocument.openAll openFile defaults
  let customDefaults ← ConfigDocument.openAll openFile project.customDefaults
  .ok ⟨project, defaults, customDefaults⟩

/-- Open a file of the local disk, given how the disk itself answers. Names that look like the
address of something remote are refused. -/
def openLocalFile (disk : OpenFile) : OpenFile := fun name =>
  if Text.startsWith "http" name then
    .error ⟨.unsupported, "file location not yet supported for '" ++ name ++ "'"⟩
  else disk name

end PipelineConfig
