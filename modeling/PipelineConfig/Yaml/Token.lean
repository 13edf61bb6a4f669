/-!
# Tokens of YAML texts

The tokens that a YAML text consists of, after comments and blanks are gone and indentation has
been turned into brackets: a block collection begins with `blockSequenceStart` or
`blockMappingStart` and ends with `blockEnd`, wherever its indentation ends. A simple key, one
that is only recognised by the colon behind it, is announced by `key` like an explicit one.
-/

namespace PipelineConfig.Yaml

/-- How a scalar is written. -/
inductive Style
  | plain | quoted | literal | folded
  deriving DecidableEq, Repr

/-- A token of a YAML text. -/
inductive Token
  | versionDirective (major minor : Nat)
  | tagDirective (handle expansion : List Char)
  | documentStart
  | documentEnd
  | streamEnd
  | blockSequenceStart
  | blockMappingStart
  | blockEnd
  | flowSequenceStart
  | flowSequenceEnd
  | flowMappingStart
  | flowMappingEnd
  | blockEntry
  | flowEntry
  | key
  | value
  | reference (name : List Char)
  | anchor (name : List Char)
  | tag (handle suffix : List Char)
  | scalar (style : Style) (text : List Char)
  deriving DecidableEq, Repr

end PipelineConfig.Yaml
