import PipelineConfig.Fault
import PipelineConfig.Value.Reading
import PipelineConfig.Yaml.Node.Composition
import PipelineConfig.Yaml.Scalar

/-!
# From YAML documents to data

A `Decoder` reads the node of a document as data of some type. What a scalar means depends on what
is asked for: a place for text takes the text of any scalar as it is written, a place for a value
takes what the scalar stands for. `Decoder.value` reads anything as a configuration value, and the
combinators below read text, lists, maps with text keys, optional things and records.

Two limits keep reading finite however references are knotted: collections nest at most
`maxLevels` deep, and references are followed at most a hundred times per node of the document.
-/

namespace PipelineConfig.Yaml

/-- A reading of a document: it may fail, and counts the references followed. -/
abbrev Decoding := ReaderT Document (StateT Nat (Except Fault))

/-- A way to read a node; the number says how many more levels of collections may open. -/
abbrev Decoder (α : Type) := Nat → Node → Decoding α

/-- The number of levels of collections that a document may have. -/
def maxLevels : Nat := 128

namespace Decoding

/-- Give up. -/
def fail {α : Type} (fault : Fault) : Decoding α :=
  throw fault

/-- The node itself, or the node it refers to. -/
def follow : Node → Decoding Node
  | .reference id => do
    let document ← read
    let followed ← get
    if 100 * document.size ≤ followed then fail .malformed
    else do
      set (followed + 1)
      match document.target? id with
      | some node => pure node
      | none => fail .malformed
  | node => pure node

end Decoding

namespace Decoder

open Decoding

/-! ### Scalars -/

/-- The tags of the core schema begin with this. -/
def coreTag (name : String) : String :=
  "tag:yaml.org,2002:" ++ name

/-- The name of a local tag, which begins with an exclamation mark. -/
def localTag? (tag? : Option String) : Option String :=
  tag?.bind (fun tag => match tag.toList with
    | ['!'] => some "!"
    | '!' :: rest => some (String.ofList rest)
    | _ => none)

/-- The value that the meaning of a scalar with this text gives. -/
def ofMeaning (text : String) : Meaning → Except Fault Value
  | .null => .ok .null
  | .bool b => .ok (.bool b)
  | .int n => .ok (Value.ofWhole n)
  | .wide _ => .error .malformed
  | .float x => .ok (.float x)
  | .string => .ok (.string text)

/-- The value of a scalar. A tag of the core schema forces the type, a local one is a fault. -/
def scalarValue (tag? : Option String) (style : Style) (text : String) : Except Fault Value :=
  match tag? with
  | some tag =>
    if (localTag? tag?).isSome then .error .malformed
    else if tag = coreTag "bool" then
      match Meaning.bool? text with
      | some b => .ok (.bool b)
      | none => .error .malformed
    else if tag = coreTag "int" then
      match Meaning.ofIntText? text with
      | some m => ofMeaning text m
      | none => .error .malformed
    else if tag = coreTag "float" then
      match Meaning.float? text with
      | some x => .ok (.float x)
      | none => .error .malformed
    else if tag = coreTag "null" then
      if Meaning.isNullWord text then .ok .null else .error .malformed
    else .ok (.string text)
  | none =>
    if style = .plain then ofMeaning text (Meaning.ofPlain text) else .ok (.string text)

/-- The text of any scalar, as it is written. -/
def text : Decoder String := fun _ node => do
  match ← follow node with
  | .scalar _ _ s => pure s
  | _ => fail .malformed

/-- A truth value, written plainly. -/
def bool : Decoder Bool := fun _ node => do
  match ← follow node with
  | .scalar tag? style s =>
    if style = .plain ∨ (style = .literal ∧ tag? = some (coreTag "bool")) then
      match Meaning.bool? s with
      | some b => pure b
      | none => fail .malformed
    else fail .malformed
  | _ => fail .malformed

/-! ### Values -/

/-- The key of a mapping in a value. -/
def keyText (key : Value) : Except Fault String :=
  match key.keyText? with
  | some s => .ok s
  | none => .error (.keyNotScalar key.kind)

/-- Any node as a configuration value. -/
def value : Decoder Value
  | levels, node => do
    match ← follow node with
    | .scalar tag? style s => MonadExcept.ofExcept (scalarValue tag? style s)
    | .sequence tag? items =>
      if (localTag? tag?).isSome then fail .malformed
      else match levels with
        | 0 => fail .malformed
        | levels + 1 => return .sequence (← items.mapM (fun item => value levels item))
    | .mapping tag? entries =>
      if (localTag? tag?).isSome then fail .malformed
      else match levels with
        | 0 => fail .malformed
        | levels + 1 =>
          let pairs ← entries.mapM (fun entry => do
            let key ← value levels entry.1
            let v ← value levels entry.2
            let name ← MonadExcept.ofExcept (keyText key)
            pure (name, v))
          return .mapping (Assoc.ofList pairs)
    | .reference _ | .unread => fail .malformed
termination_by structural levels => levels

/-! ### Collections -/

/-- Whether a node is nothing at all, written as nothing. -/
def isVoid : Node → Bool
  | .scalar _ .plain s => s.isEmpty
  | _ => false

/-- A list; nothing at all counts as the empty one. -/
def list {α : Type} (item : Decoder α) : Decoder (List α) := fun levels node => do
  match ← follow node with
  | .sequence _ items =>
    match levels with
    | 0 => fail .malformed
    | levels + 1 => items.mapM (item levels)
  | node => if isVoid node then pure [] else fail .malformed

/-- The entries of a mapping with text keys, in document order; nothing at all counts as the
empty one. -/
def entries {α : Type} (item : Decoder α) : Decoder (List (String × α)) := fun levels node => do
  match ← follow node with
  | .mapping _ es =>
    match levels with
    | 0 => fail .malformed
    | levels + 1 => es.mapM (fun e => do
      let name ← text levels e.1
      let v ← item levels e.2
      pure (name, v))
  | node => if isVoid node then pure [] else fail .malformed

/-- A mapping of configuration values under text keys. -/
def mapping : Decoder Mapping := fun levels node => do
  return Assoc.ofList (← entries value levels node)

/-- Something that may be null. -/
def optional {α : Type} (item : Decoder α) : Decoder (Option α) := fun levels node => do
  let node ← follow node
  match node with
  | .scalar tag? .plain s =>
    match tag? with
    | some tag =>
      if tag = coreTag "null" then
        if Meaning.isNullWord s then pure none else fail .malformed
      else some <$> item levels node
    | none => if s.isEmpty || Meaning.isNullWord s then pure none else some <$> item levels node
  | _ => some <$> item levels node

/-- Something that may be null, which then counts as a given default. -/
def orDefault {α : Type} (default : α) (item : Decoder α) : Decoder α := fun levels node => do
  return (← optional item levels node).getD default

/-- One of some words. -/
def word {α : Type} (words : List (String × α)) : Decoder α := fun _ node => do
  let pick (s : String) : Decoding α :=
    match Assoc.get? words s with
    | some a => pure a
    | none => fail .malformed
  match ← follow node with
  | .scalar tag? style s =>
    match localTag? tag? with
    | some name =>
      if style = .plain && (s.isEmpty || Meaning.isNullWord s) then pick name else fail .malformed
    | none => pick s
  | _ => fail .malformed

/-! ### Records -/

/-- The fields of a record: their names in order, which of them must be there, and whether other
names are faults. -/
structure Fields where
  names : List String
  required : List String
  closed : Bool

/-- Read the entries of a mapping as the fields of a record. -/
def readEntries {α : Type} (fields : Fields) (levels : Nat)
    (field : α → String → Node → Decoding α) :
    List (Node × Node) → List String → α → Decoding α
  | [], seen, a =>
    if fields.required.all seen.contains then pure a else fail .malformed
  | (key, node) :: rest, seen, a => do
    let name ← text levels key
    if !fields.names.contains name then
      if fields.closed then fail .malformed else readEntries fields levels field rest seen a
    else if seen.contains name then fail .malformed
    else do
      let a ← field a name node
      readEntries fields levels field rest (name :: seen) a

/-- A record. Fields that are not there keep what `start` has in them; a field may not be given
twice. Nothing at all counts as a record without fields, unless one must be there. -/
def record {α : Type} (fields : Fields) (start : α)
    (field : (levels : Nat) → α → String → Node → Decoding α) : Decoder α := fun levels node => do
  match ← follow node with
  | .mapping _ es =>
    match levels with
    | 0 => fail .malformed
    | levels + 1 => readEntries fields levels (field levels) es [] start
  | node =>
    if isVoid node && fields.required.isEmpty then pure start else fail .malformed

/-! ### Texts -/

/-- Read a text, which must be one document. What is wrong with the data in front of a fault of the
text is wrong first. -/
def readText {α : Type} (decoder : Decoder α) (s : String) : Except Fault α :=
  let document := Document.ofText s
  match ((decoder maxLevels (document.root?.getD Node.absent)).run document).run 0 with
  | .error fault => .error fault
  | .ok (a, _) => if document.alone then .ok a else .error .malformed

end Decoder

/-- The configuration value of a YAML text. -/
def readValue (s : String) : Except Fault Value :=
  Decoder.value.readText s

end PipelineConfig.Yaml
