import PipelineConfig.Value.Basic
import PipelineConfig.Width

/-!
# What readers hand over

A reader of YAML or JSON hands over what it comes across, one node at a time, and here is what
becomes of it as a configuration value. Numbers below zero come with a sign and the others without
one, and these may be too large for an integer. The key of a mapping comes as a value of its own.
-/

namespace PipelineConfig.Value

/-- A whole number that comes with a sign. -/
def ofSigned (n : Int64) : Value :=
  .int n

/-- A whole number that comes without a sign: an integer where it fits, otherwise the nearest
float. -/
def ofUnsigned (n : Nat) : Value :=
  if Width.holds 63 n then .int (Int64.ofNat n) else .float (Float.ofNat n)

/-- A whole number, which comes with a sign if it is below zero. -/
def ofWhole : Int → Value
  | .ofNat n => ofUnsigned n
  | .negSucc n => ofSigned (Int64.ofInt (.negSucc n))

/-- The name that a key stands for: the text of a scalar, null being the empty text. -/
def keyText? : Value → Option String
  | .null => some ""
  | v => v.scalarText?

end PipelineConfig.Value
