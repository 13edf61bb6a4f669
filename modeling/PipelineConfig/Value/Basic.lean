import PipelineConfig.Assoc
import PipelineConfig.Decimal.Text

/-!
# Configuration values

Whatever a configuration document holds is a `Value`: nothing, a truth value, a whole number of
64 bits, a float, a text, a sequence or a mapping. A mapping is a list of pairs whose keys ascend;
`Value.Canonical` says so at every level, and everything that builds a mapping keeps it so.

The order of a mapping is the order of its keys, never the order of the document it came from.
-/

namespace PipelineConfig

/-- A configuration value. -/
inductive Value
  | null
  | bool (b : Bool)
  | int (n : Int64)
  | float (x : Float)
  | string (s : String)
  | sequence (items : List Value)
  | mapping (entries : List (String × Value))

/-- Values under names, sorted by name. -/
abbrev Mapping := List (String × Value)

/-- The kinds of value. -/
inductive Kind
  | null | bool | int | float | string | sequence | mapping
  deriving DecidableEq, Repr

/-- The word for a kind in messages. -/
def Kind.name : Kind → String
  | .null => "null"
  | .bool => "bool"
  | .int => "int"
  | .float => "float"
  | .string => "string"
  | .sequence => "sequence"
  | .mapping => "mapping"

namespace Value

instance : Inhabited Value := ⟨.null⟩

/-- The kind of a value. -/
def kind : Value → Kind
  | .null => .null
  | .bool _ => .bool
  | .int _ => .int
  | .float _ => .float
  | .string _ => .string
  | .sequence _ => .sequence
  | .mapping _ => .mapping

/-! ### Views -/

/-- Whether this is the null value. -/
def isNull : Value → Bool
  | .null => true
  | _ => false

/-- The text of a string value. -/
def asString? : Value → Option String
  | .string s => some s
  | _ => none

/-- The truth value of a boolean. -/
def asBool? : Value → Option Bool
  | .bool b => some b
  | _ => none

/-- The items of a sequence. -/
def asSequence? : Value → Option (List Value)
  | .sequence items => some items
  | _ => none

/-- The entries of a mapping. -/
def asMapping? : Value → Option Mapping
  | .mapping m => some m
  | _ => none

/-- Whether a slot that holds this value still counts as empty: null and the empty text do, while
`false` and zero are settings like any other. -/
def isUnset : Value → Bool
  | .null => true
  | .string s => s.isEmpty
  | _ => false

/-- The text of a scalar; null, sequences and mappings have none. -/
def scalarText? : Value → Option String
  | .bool true => some "true"
  | .bool false => some "false"
  | .int n => some (toString n.toInt)
  | .float x => some (Decimal.plainText x)
  | .string s => some s
  | .null | .sequence _ | .mapping _ => none

/-! ### Canonical form -/

mutual

/-- Every mapping inside the value has ascending keys. -/
def Canonical : Value → Prop
  | .sequence items => CanonicalItems items
  | .mapping entries => Assoc.Sorted entries ∧ CanonicalEntries entries
  | _ => True
termination_by structural v => v

/-- Every item is canonical. -/
def CanonicalItems : List Value → Prop
  | [] => True
  | v :: rest => Canonical v ∧ CanonicalItems rest
termination_by structural vs => vs

/-- Every value of the entries is canonical. -/
def CanonicalEntries : List (String × Value) → Prop
  | [] => True
  | (_, v) :: rest => Canonical v ∧ CanonicalEntries rest
termination_by structural es => es

end

end Value

namespace Mapping

/-- The value under a key that is set to something other than null. -/
def nonNull? (m : Mapping) (key : String) : Option Value :=
  match Assoc.get? m key with
  | some v => if v.isNull then none else some v
  | none => none

/-- The text under a key, if a text is there. -/
def string? (m : Mapping) (key : String) : Option String :=
  (Assoc.get? m key).bind Value.asString?

/-- A mapping is canonical when its keys ascend, at every level. -/
def Canonical (m : Mapping) : Prop :=
  (Value.mapping m).Canonical

end Mapping

end PipelineConfig
