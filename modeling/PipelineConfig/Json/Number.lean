import PipelineConfig.Decimal.Reading
import PipelineConfig.Width

/-!
# Numbers in JSON texts

A whole number that fits 64 bits is kept exactly. Every other number becomes a float by a cheap
rule rather than by exact rounding: the leading digits that fit 64 bits form a whole number, which
is rounded to a float, and one multiplication or division by a power of ten puts the point where
it belongs. Digits that do not fit only count as places. A number too large for a float is an
error; one too small is zero.
-/

namespace PipelineConfig.Json

/-- A number of a JSON text: exact, or rounded. -/
inductive Number
  | int (n : Int)
  | float (x : Float)

namespace Number

/-! ### Views -/

/-- The integer that a number is, if it is a whole number that fits. -/
def asInt64? : Number → Option Int64
  | .int n => if Width.holdsSigned 64 n then some (Int64.ofInt n) else none
  | .float _ => none

/-- The float that is nearest to a number. -/
def asFloat : Number → Float
  | .int (.ofNat n) => Float.ofNat n
  | .int (.negSucc n) => -(Float.ofNat (n + 1))
  | .float x => x

/-! ### Reading -/

/-- Take up digits while the number fits 64 bits; also how many were taken. -/
def absorb : Nat → List Char → Nat × Nat
  | n, [] => (n, 0)
  | n, c :: rest =>
    let next := 10 * n + (c.toNat - '0'.toNat)
    if Width.holds 64 next then
      let (m, taken) := absorb next rest
      (m, taken + 1)
    else (n, 0)

/-- A power of ten as a float. -/
def power (n : Nat) : Float :=
  Float.ofScientific 1 false n

/-- Move the point of a float; `none` when the result is too large. Moves by more than 308 places
to the left go in several steps, of which the second already reaches zero. -/
def scale : Nat → Float → Int → Option Float
  | 0, x, _ => some x
  | steps + 1, x, e =>
    if 0 ≤ e then
      if e ≤ 308 then
        let y := x * power e.toNat
        if y.isInf then none else some y
      else if x == 0.0 then some x
      else none
    else if -308 ≤ e then some (x / power (-e).toNat)
    else if x == 0.0 then some x
    else scale steps (x / power 308) (e + 308)

/-- The exponent part of a number: its value and the rest of the text. -/
def exponent? : List Char → Option (Int × List Char)
  | cs =>
    let (negative, cs) := match cs with
      | '-' :: r => (true, r)
      | '+' :: r => (false, r)
      | r => (false, r)
    let (ds, rest) := Decimal.splitDigits cs
    if ds = [] then none
    else
      let n : Int := Decimal.ofDigits ds
      some (if negative then -n else n, rest)

/-- The float of a significand and an exponent, with its sign. Exponents beyond 32 bits count as
infinitely large or small. -/
def rounded (negative : Bool) (significand : Nat) (places exponent : Int) : Option Float :=
  let x? :=
    if Width.holdsSigned 32 exponent.natAbs then
      scale 4 (Float.ofNat significand) (places + exponent)
    else if exponent < 0 ∨ significand = 0 then some 0.0
    else none
  x?.map (fun x => if negative then -x else x)

/-- Read the part of a number after its whole part. -/
def afterWhole (negative : Bool) (significand dropped : Nat) :
    List Char → Option (Number × List Char)
  | '.' :: r => do
    let (fraction, rest) := Decimal.splitDigits r
    if fraction = [] then none
    else
      let (significand, taken) := absorb significand fraction
      let places : Int := (dropped : Int) - taken
      withExponent significand places rest
  | 'e' :: r => withExponent significand dropped ('e' :: r)
  | 'E' :: r => withExponent significand dropped ('E' :: r)
  | rest =>
    if dropped ≠ 0 then do
      let x ← rounded negative significand dropped 0
      some (.float x, rest)
    else if !negative then some (.int significand, rest)
    else if significand = 0 || !Width.holdsSigned 64 (-significand) then
      some (.float (-(Float.ofNat significand)), rest)
    else some (.int (-significand), rest)
where
  /-- Close a number that is known to be a float. -/
  withExponent (significand : Nat) (places : Int) (cs : List Char) :
      Option (Number × List Char) := do
    let (e, rest) ← match cs with
      | 'e' :: r => exponent? r
      | 'E' :: r => exponent? r
      | r => some (0, r)
    let x ← rounded negative significand places e
    some (.float x, rest)

/-- Read a number from the front of a text. The whole part has no needless leading zero. -/
def read? (cs : List Char) : Option (Number × List Char) :=
  let (negative, cs) := match cs with
    | '-' :: r => (true, r)
    | r => (false, r)
  let (whole, rest) := Decimal.splitDigits cs
  match whole with
  | [] => none
  | '0' :: _ :: _ => none
  | _ =>
    let (significand, taken) := absorb 0 whole
    afterWhole negative significand (whole.length - taken) rest

end Number

end PipelineConfig.Json
