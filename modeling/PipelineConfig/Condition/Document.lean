import PipelineConfig.Condition.Error
import PipelineConfig.Text.Blank
import PipelineConfig.Yaml.Decoding

/-!
# Stage condition documents

A stage condition document lists stages, in each stage steps, and for each step the conditions
that all have to hold. The order of the document is kept. A condition is named by its reference
and has parameters, each a text or a list of texts; other scalars are taken as their texts.
-/

namespace PipelineConfig

/-- The value of a condition's parameter. -/
inductive ParamValue
  | text (s : String)
  | list (items : List String)
  deriving DecidableEq, Repr, Inhabited

namespace ParamValue

/-- The text of a parameter that is no list. -/
def text? : ParamValue → Option String
  | text s => some s
  | list _ => none

/-- The items of a parameter that is a list. -/
def list? : ParamValue → Option (List String)
  | text _ => none
  | list items => some items

/-- Whether there is nothing to compare with; a list is something even without items. -/
def isEmpty : ParamValue → Bool
  | text s => s.isEmpty
  | list _ => false

/-- The texts of the items of a list. -/
def itemTexts : List Value → Except Fault (List String)
  | [] => .ok []
  | v :: rest =>
    match v.scalarText? with
    | none => .error (.itemNotScalar v.kind)
    | some s => do
      let more ← itemTexts rest
      .ok (s :: more)

/-- The parameter that a configuration value makes. Null makes the empty text. -/
def ofValue : Value → Except Fault ParamValue
  | .sequence items => (itemTexts items).map list
  | .null => .ok (text "")
  | v =>
    match v.scalarText? with
    | some s => .ok (text s)
    | none => .error (.notTextOrList v.kind)

end ParamValue

/-- A parameter of a condition. -/
structure ConditionParam where
  name : String
  value : ParamValue
  deriving DecidableEq, Repr, Inhabited

/-- A condition of a step. -/
structure Condition where
  ref : String
  params : List ConditionParam
  deriving DecidableEq, Repr, Inhabited

/-- The conditions of the steps of stages, in document order. -/
structure StageDocument where
  stages : List (String × List (String × List Condition))
  deriving DecidableEq, Repr, Inhabited

/-! ### Reading -/

open Yaml Yaml.Decoder

/-- Read the value of a parameter. -/
def ParamValue.decoder : Decoder ParamValue := fun levels node => do
  let v ← value levels node
  MonadExcept.ofExcept (ParamValue.ofValue v)

/-- Read a parameter. -/
def ConditionParam.decoder : Decoder ConditionParam :=
  record ⟨["name", "value"], ["name", "value"], false⟩ ⟨"", .text ""⟩ fun levels p name node => do
    match name with
    | "name" => return { p with name := ← text levels node }
    | _ => return { p with value := ← ParamValue.decoder levels node }

/-- Read a condition. -/
def Condition.decoder : Decoder Condition :=
  record ⟨["conditionRef", "params"], [], false⟩ ⟨"", []⟩ fun levels c name node => do
    match name with
    | "conditionRef" => return { c with ref := ← text levels node }
    | _ => return { c with params := ← list ConditionParam.decoder levels node }

namespace StageDocument

/-- Read the conditions of a step. -/
def conditionsDecoder : Decoder (List Condition) :=
  record ⟨["conditions"], [], false⟩ [] fun levels _ _ node => list Condition.decoder levels node

/-- Read the steps of a stage. -/
def stepsDecoder : Decoder (List (String × List Condition)) :=
  record ⟨["stepConditions"], [], false⟩ [] fun levels _ _ node => do
    return Assoc.ofListInOrder (← entries conditionsDecoder levels node)

/-- Read a document. -/
def decoder : Decoder StageDocument :=
  record ⟨["stages"], [], false⟩ ⟨[]⟩ fun levels _ _ node => do
    return ⟨Assoc.ofListInOrder (← entries stepsDecoder levels node)⟩

/-- The document of a text; `document` names it in errors. -/
def ofText (document s : String) : Except ConditionError StageDocument :=
  if Text.isBlankText s then .ok ⟨[]⟩
  else match decoder.readText s with
    | .ok d => .ok d
    | .error fault => .error (.notParsed document fault)

/-- The number of steps that the document decides on. -/
def stepCount (d : StageDocument) : Nat :=
  (d.stages.flatMap Prod.snd).length

end StageDocument

end PipelineConfig
