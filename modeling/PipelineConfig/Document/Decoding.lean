import PipelineConfig.ConfigError
import PipelineConfig.Document.Basic
import PipelineConfig.Text.Blank
import PipelineConfig.Yaml.Decoding

/-!
# Reading configuration documents

A configuration document is YAML. Names that it does not know are passed over, a text of nothing
but blanks is the empty document, and null stands for an empty part. Sections that are null are as
good as not there.
-/

namespace PipelineConfig.ConfigDocument

open Yaml Yaml.Decoder

/-- Read sections by name; those that are null go away. -/
def sectionsDecoder : Decoder (List (String × Mapping)) := fun levels node => do
  let sections ← orDefault [] (entries (optional mapping)) levels node
  let sections := Assoc.ofList sections
  return sections.filterMap (fun (name, s?) => s?.map (fun s => (name, s)))

/-- Read a document. -/
def decoder : Decoder ConfigDocument :=
  record ⟨["customDefaults", "general", "stages", "steps", "hooks"], [], false⟩ empty
    fun levels d name node => do
      match name with
      | "customDefaults" =>
        return { d with customDefaults := ← orDefault [] (list text) levels node }
      | "general" => return { d with general := ← orDefault [] mapping levels node }
      | "stages" => return { d with stages := ← sectionsDecoder levels node }
      | "steps" => return { d with steps := ← sectionsDecoder levels node }
      | _ => return { d with hooks := ← orDefault [] mapping levels node }

/-- The document of a text; `document` names it in errors. -/
def ofText (document text : String) : Except ConfigError ConfigDocument :=
  if Text.isBlankText text then .ok empty
  else match decoder.readText text with
    | .ok d => .ok d
    | .error fault => .error (.notParsed document fault)

/-- How a configuration document is called in errors when it has no name. -/
def documentName : String := "configuration"

/-- The document of a stream; `document` names it in errors. -/
def ofStream (document : String) (stream : ByteStream) : Except ConfigError ConfigDocument :=
  match stream.readText with
  | .error failure => .error (.unreadable document failure)
  | .ok text => ofText document text

end PipelineConfig.ConfigDocument
