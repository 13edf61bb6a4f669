import PipelineConfig.Yaml.Token

/-!
# YAML documents as trees

A `Node` is a scalar with its text, a sequence, a mapping in the order of the document, or a
reference to a node that an anchor names. References stay references: a node may lie inside the
node it refers to, so only a reader that counts its steps may follow them.

A faulty text has a tree as well. It goes as far as the text can be read, and ends in a node that is
`unread`, which is data of no type.
-/

namespace PipelineConfig.Yaml

/-- A node of a document. Tags are written out in full; local ones begin with `!`. -/
inductive Node
  | scalar (tag? : Option String) (style : Style) (text : String)
  | sequence (tag? : Option String) (items : List Node)
  | mapping (tag? : Option String) (entries : List (Node × Node))
  | reference (target : Nat)
  | unread

instance : Inhabited Node := ⟨.scalar none .plain ""⟩

/-- The node that stands where a document has nothing. -/
def Node.absent : Node :=
  .scalar none .plain ""

/-- A document. A text without any node has no root. `size` counts the nodes, collections twice;
`alone` says that the text ends after the document. -/
structure Document where
  root? : Option Node
  anchored : List (Nat × Node)
  size : Nat
  alone : Bool

namespace Document

/-- The node that a reference stands for. -/
def target? (d : Document) (id : Nat) : Option Node :=
  (d.anchored.find? (fun p => p.1 = id)).map Prod.snd

end Document

end PipelineConfig.Yaml
