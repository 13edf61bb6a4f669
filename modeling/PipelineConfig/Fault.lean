import PipelineConfig.Value.Basic

/-!
# What can be wrong with a text

A text that should be a document may fail to be one in many ways, and all but a few of them count
the same: it is `malformed`. The remaining ones are rules of this library on top of the syntax,
and their wording is part of the message.
-/

namespace PipelineConfig

/-- Why a text is not the document it should be. -/
inductive Fault
  | malformed
  | duplicateParameter (name : String)
  | keyNotScalar (found : Kind)
  | itemNotScalar (found : Kind)
  | notTextOrList (found : Kind)
  deriving DecidableEq, Repr

/-- The wording of a fault, where it has one. -/
def Fault.detail? : Fault → Option String
  | .malformed => none
  | .duplicateParameter name => some ("duplicate parameter '" ++ name ++ "'")
  | .keyNotScalar found => some ("unsupported " ++ found.name ++ " mapping key")
  | .itemNotScalar found => some ("array items must be scalars, found " ++ found.name)
  | .notTextOrList found => some ("expected string or array, found " ++ found.name)

/-- The message that a document could not be parsed. -/
def Fault.parseMessage (document : String) (fault : Fault) : String :=
  "Failed to parse " ++ document ++ (match fault.detail? with
    | some detail => ": " ++ detail
    | none => "")

end PipelineConfig
