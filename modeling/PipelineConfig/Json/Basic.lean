import PipelineConfig.Json.Number
import PipelineConfig.Value.Basic

/-!
# JSON documents

`Json` is the tree of a JSON text. A number without fraction and exponent that fits 64 bits,
signed or unsigned, is a whole number; every other number is a float. `Value.ofJson` and
`Value.toJson` pass between such trees and configuration values: a whole number beyond the signed
range becomes the nearest float, and the members of an object become a sorted mapping in which
the later of two members with one name stays.
-/

namespace PipelineConfig

/-- The tree of a JSON text. -/
inductive Json
  | null
  | bool (b : Bool)
  | int (n : Int)
  | float (x : Float)
  | string (s : String)
  | array (items : List Json)
  | object (members : List (String × Json))

namespace Json

instance : Inhabited Json := ⟨.null⟩

/-- The members of an object. -/
def asObject? : Json → Option (List (String × Json))
  | .object members => some members
  | _ => none

/-- The text of a string. -/
def asString? : Json → Option String
  | .string s => some s
  | _ => none

end Json

namespace Value

/-- The value that a number stands for: the integer that it is, otherwise a float. -/
def ofNumber (n : Json.Number) : Value :=
  match n.asInt64? with
  | some i => .int i
  | none => .float n.asFloat

mutual

/-- The value a JSON tree stands for. -/
def ofJson : Json → Value
  | .null => .null
  | .bool b => .bool b
  | .int n => ofNumber (.int n)
  | .float x => ofNumber (.float x)
  | .string s => .string s
  | .array items => .sequence (ofJsonItems items)
  | .object members => .mapping (Assoc.ofList (ofJsonMembers members))
termination_by structural j => j

/-- The values of the items of an array. -/
def ofJsonItems : List Json → List Value
  | [] => []
  | j :: rest => ofJson j :: ofJsonItems rest
termination_by structural js => js

/-- The values of the members of an object, in their order. -/
def ofJsonMembers : List (String × Json) → List (String × Value)
  | [] => []
  | (name, j) :: rest => (name, ofJson j) :: ofJsonMembers rest
termination_by structural ms => ms

end

mutual

/-- The JSON tree of a value. -/
def toJson : Value → Json
  | .null => .null
  | .bool b => .bool b
  | .int n => .int n.toInt
  | .float x => .float x
  | .string s => .string s
  | .sequence items => .array (toJsonItems items)
  | .mapping entries => .object (toJsonMembers entries)
termination_by structural v => v

/-- The JSON trees of the items of a sequence. -/
def toJsonItems : List Value → List Json
  | [] => []
  | v :: rest => toJson v :: toJsonItems rest
termination_by structural vs => vs

/-- The JSON trees of the entries of a mapping. -/
def toJsonMembers : List (String × Value) → List (String × Json)
  | [] => []
  | (name, v) :: rest => (name, toJson v) :: toJsonMembers rest
termination_by structural es => es

end

end Value

end PipelineConfig
