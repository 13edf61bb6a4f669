import PipelineConfig.Decimal.Reading
import PipelineConfig.Width
import PipelineConfig.Yaml.Token

/-!
# What a plain scalar means

A scalar without quotes and without a tag may stand for nothing, a truth value or a number:

* nothing: the empty text, `~`, `null`, `Null`, `NULL`;
* truth values: `true` and `false`, in lower case, capitalised or in upper case;
* whole numbers: decimal, or behind `0x`, `0o` and `0b`, with an optional sign; a decimal number of
  several digits does not begin with zero;
* floats: decimal notation of a finite number, and `.inf` and `.nan` in three spellings.

Every other text is a string.
-/

namespace PipelineConfig.Yaml

/-- The meaning of a scalar. A whole number outside of 64 bits is `wide` as long as 128 bits hold
it. -/
inductive Meaning
  | null
  | bool (b : Bool)
  | int (n : Int)
  | wide (n : Int)
  | float (x : Float)
  | string

namespace Meaning

/-- The spellings of nothing, the empty text apart. -/
def isNullWord (s : String) : Bool :=
  s = "~" || s = "null" || s = "Null" || s = "NULL"

/-- The truth value that a text spells. -/
def bool? (s : String) : Option Bool :=
  if s = "true" ∨ s = "True" ∨ s = "TRUE" then some true
  else if s = "false" ∨ s = "False" ∨ s = "FALSE" then some false
  else none

/-- The value of a digit in bases up to sixteen, letters in either case. -/
def digit? (base : Nat) (c : Char) : Option Nat :=
  let v? :=
    if '0' ≤ c ∧ c ≤ '9' then some (c.toNat - '0'.toNat)
    else if 'a' ≤ c ∧ c ≤ 'f' then some (c.toNat - 'a'.toNat + 10)
    else if 'A' ≤ c ∧ c ≤ 'F' then some (c.toNat - 'A'.toNat + 10)
    else none
  v?.bind (fun v => if v < base then some v else none)

/-- The number that digits of a base write; at least one digit is needed. -/
def natural? (base : Nat) (cs : List Char) : Option Nat :=
  if cs = [] then none
  else cs.foldlM (fun n c => (digit? base c).map (fun v => base * n + v)) 0

/-- Several decimal digits that begin with zero: no number. -/
def isPadded (cs : List Char) : Bool :=
  let cs := match cs with
    | '-' :: r => r
    | '+' :: r => r
    | r => r
  match cs with
  | '0' :: d :: r => (d :: r).all Char.isDigit
  | _ => false

/-- The number that unsigned digits behind an optional base write. -/
def magnitude? : List Char → Option Nat
  | '0' :: 'x' :: ds => natural? 16 ds
  | '0' :: 'o' :: ds => natural? 8 ds
  | '0' :: 'b' :: ds => natural? 2 ds
  | ds => if isPadded ds then none else natural? 10 ds

/-- The whole number that a text writes. -/
def int? : List Char → Option Int
  | '-' :: ds => (magnitude? ds).map (fun n => -(n : Int))
  | '+' :: ds => (magnitude? ds).map (fun n => (n : Int))
  | ds => (magnitude? ds).map (fun n => (n : Int))

/-- The float that a text writes; a text too large for a float writes none. -/
def float? (s : String) : Option Float :=
  let cs := s.toList
  let unsigned := match cs with
    | '+' :: r => r
    | r => r
  let isInf (cs : List Char) : Bool :=
    [".inf", ".Inf", ".INF"].contains (String.ofList cs)
  if isInf unsigned then some (1.0 / 0.0)
  else match cs with
    | '-' :: r =>
      if isInf r then some (-1.0 / 0.0) else finite? cs
    | '+' :: '-' :: _ | '+' :: '+' :: _ => none
    | _ =>
      if [".nan", ".NaN", ".NAN"].contains s then some (0.0 / 0.0) else finite? unsigned
where
  /-- A number in decimal notation that is not too large. -/
  finite? (cs : List Char) : Option Float :=
    (Decimal.read? cs).bind (fun x => if x.isFinite then some x else none)

/-- A whole number by its size. Beyond 128 bits it is none any more. -/
def ofInt? (n : Int) : Option Meaning :=
  if Width.holdsEither 64 n then some (.int n)
  else if Width.holdsEither 128 n then some (.wide n)
  else none

/-- The whole number that a text writes, as a meaning. -/
def ofIntText? (s : String) : Option Meaning :=
  (int? s.toList).bind ofInt?

/-- The meaning of a plain scalar without a tag. -/
def ofPlain (s : String) : Meaning :=
  if s.isEmpty || isNullWord s then .null
  else match bool? s with
    | some b => .bool b
    | none =>
      match ofIntText? s with
      | some m => m
      | none =>
        if isPadded s.toList then .string
        else match float? s with
          | some x => .float x
          | none => .string

end Meaning

end PipelineConfig.Yaml
