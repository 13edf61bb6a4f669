import PipelineConfig.Value.Basic

/-!
# The surroundings of a resolution

A resolution reads environment variables and the time, and takes down which deprecated names it
has met. The notes of several resolutions form one list: it only grows, at its end, and has at
most one note for a name.
-/

namespace PipelineConfig

/-- The environment variables. -/
abbrev Environment := String → Option String

/-- The use of a deprecated alias for a parameter. -/
structure AliasUse where
  name : String
  parameter : String
  deriving DecidableEq, Repr

/-- A deprecated name that was met, with the step and the time of the first meeting. -/
structure DeprecationNote where
  name : String
  parameter : String
  step : String
  /-- Seconds since the beginning of 1970. -/
  time : Int
  deriving DecidableEq, Repr

/-- The surroundings: environment, time and the notes so far. -/
structure Context where
  env : Environment
  now : Int
  notes : List DeprecationNote

namespace Context

/-- Whether a name has been noted. -/
def hasNoted (c : Context) (name : String) : Bool :=
  c.notes.any (fun n => n.name = name)

/-- Note a deprecated name, unless it has been noted before. -/
def note (c : Context) (name parameter step : String) : Context :=
  if c.hasNoted name then c
  else { c with notes := c.notes ++ [⟨name, parameter, step, c.now⟩] }

/-- How a context is shown: by the number of its notes. -/
def shown (c : Context) : String :=
  "ResolutionContext \x7b deprecation_notes: " ++ toString c.notes.length ++ ", .. \x7d"

end Context

end PipelineConfig
