import PipelineConfig.Yaml.Decoding

/-!
# YAML data as such

`Data` is what a YAML document says without any idea of what it is for: mappings may have keys of
every kind, and local tags stay on what they mark. In this reading no two keys of a mapping may be
equal, at any depth; the order of the entries does not matter for that.
-/

namespace PipelineConfig.Yaml

/-- The data of a node. -/
inductive Data
  | null
  | bool (b : Bool)
  | int (n : Int)
  | float (x : Float)
  | string (s : String)
  | sequence (items : List Data)
  | mapping (entries : List (Data × Data))
  | tagged (tag : String) (content : Data)

namespace Data

instance : Inhabited Data := ⟨.null⟩

/-- Whether two data are equal. What is no number is equal to itself here. The fuel bounds the
depth of the comparison. -/
def same : (fuel : Nat) → Data → Data → Bool
  | 0, _, _ => false
  | _, .null, .null => true
  | _, .bool a, .bool b => a == b
  | _, .int a, .int b => a == b
  | _, .float a, .float b => (a.isNaN && b.isNaN) || a == b
  | _, .string a, .string b => a == b
  | fuel + 1, .sequence as, .sequence bs =>
    as.length == bs.length && (as.zip bs).all (fun p => same fuel p.1 p.2)
  | fuel + 1, .mapping as, .mapping bs =>
    as.length == bs.length && as.all (fun a =>
      match bs.find? (fun b => same fuel a.1 b.1) with
      | some b => same fuel a.2 b.2
      | none => false)
  | fuel + 1, .tagged s a, .tagged t b => s == t && same fuel a b
  | _, _, _ => false

/-- More than the depth of any data that is read: every level may add a tag. -/
def maxDepth : Nat := 2 * maxLevels + 2

/-- Whether some key occurs twice. -/
def hasRepeatedKey : List (Data × Data) → Bool
  | [] => false
  | e :: rest => rest.any (fun f => same maxDepth e.1 f.1) || hasRepeatedKey rest

end Data

namespace Decoder

open Decoding

/-- The data that the meaning of a scalar with this text gives. -/
def dataOfMeaning (text : String) : Meaning → Except Fault Data
  | .null => .ok .null
  | .bool b => .ok (.bool b)
  | .int n => .ok (.int n)
  | .wide _ => .error .malformed
  | .float x => .ok (.float x)
  | .string => .ok (.string text)

/-- The data of a scalar without a local tag. -/
def scalarData (tag? : Option String) (style : Style) (text : String) : Except Fault Data :=
  match tag? with
  | some tag =>
    if tag = coreTag "int" then
      match Meaning.ofIntText? text with
      | some m => dataOfMeaning text m
      | none => .error .malformed
    else match scalarValue tag? style text with
      | .ok .null => .ok .null
      | .ok (.bool b) => .ok (.bool b)
      | .ok (.float x) => .ok (.float x)
      | .ok _ => .ok (.string text)
      | .error fault => .error fault
  | none =>
    if style = .plain then dataOfMeaning text (Meaning.ofPlain text) else .ok (.string text)

/-- The data of a node. -/
def data : Decoder Data
  | levels, node => do
    match ← follow node with
    | .scalar tag? style s =>
      match localTag? tag? with
      | some tag => return .tagged tag (← MonadExcept.ofExcept (scalarData none style s))
      | none => MonadExcept.ofExcept (scalarData tag? style s)
    | .sequence tag? items =>
      match levels with
      | 0 => fail .malformed
      | levels + 1 =>
        let content := Data.sequence (← items.mapM (fun item => data levels item))
        return ((localTag? tag?).map (fun tag => Data.tagged tag content)).getD content
    | .mapping tag? es =>
      match levels with
      | 0 => fail .malformed
      | levels + 1 =>
        let pairs ← es.mapM (fun e => do
          let key ← data levels e.1
          let v ← data levels e.2
          pure (key, v))
        if Data.hasRepeatedKey pairs then fail .malformed
        let content := Data.mapping pairs
        return ((localTag? tag?).map (fun tag => Data.tagged tag content)).getD content
    | .reference _ | .unread => fail .malformed
termination_by structural levels => levels

/-- The entries of a mapping as data; nothing at all counts as the empty mapping. -/
def dataEntries : Decoder (List (Data × Data)) := fun levels node => do
  match ← follow node with
  | .mapping _ es =>
    match ← data levels (.mapping none es) with
    | .mapping pairs => pure pairs
    | _ => fail .malformed
  | node => if isVoid node then pure [] else fail .malformed

end Decoder

/-- Whether a text is a mapping with a key, when it is read as data. -/
def hasKey (s : String) (key : String) : Bool :=
  match (Decoder.optional Decoder.dataEntries).readText s with
  | .ok (some es) => es.any (fun e => match e.1 with
    | .string k => k = key
    | _ => false)
  | _ => false

end PipelineConfig.Yaml
