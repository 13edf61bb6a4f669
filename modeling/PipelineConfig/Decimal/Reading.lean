/-!
# Reading decimals

`Decimal.read?` reads the decimal notation of a number (sign, digits, an optional point, an
optional exponent) as the nearest float, ties to even. Texts that are no number have no reading;
numbers beyond the largest float read as an infinity, which callers refuse where they want to.
-/

namespace PipelineConfig.Decimal

/-- The number that a list of digits writes in base ten. -/
def ofDigits (cs : List Char) : Nat :=
  cs.foldl (fun n c => 10 * n + (c.toNat - '0'.toNat)) 0

/-- The digits at the front of a text, and the rest. -/
def splitDigits (cs : List Char) : List Char × List Char :=
  (cs.takeWhile Char.isDigit, cs.dropWhile Char.isDigit)

/-- The float nearest to `digits · 10 ^ exponent`. Exponents far outside the range of floats are
cut short, so that no huge power is computed. -/
def nearest (digits : Nat) (size : Nat) (exponent : Int) : Float :=
  if digits = 0 then 0.0
  else if 400 < exponent + size then Float.ofScientific 1 false 400
  else if exponent + size < -400 then 0.0
  else if 0 ≤ exponent then Float.ofScientific digits false exponent.toNat
  else Float.ofScientific digits true (-exponent).toNat

/-- The exponent part of a number, which must be all that is left; no part counts as zero. -/
def readExponent? : List Char → Option Int
  | [] => some 0
  | c :: rest =>
    if c = 'e' ∨ c = 'E' then
      let (negative, ds) := match rest with
        | '-' :: r => (true, r)
        | '+' :: r => (false, r)
        | r => (false, r)
      if ds ≠ [] ∧ ds.all Char.isDigit then
        some (if negative then -(ofDigits ds : Int) else ofDigits ds)
      else none
    else none

/-- Read a number without a sign. At least one digit stands before or after the point. -/
def readUnsigned? (cs : List Char) : Option Float :=
  let (whole, rest) := splitDigits cs
  let (fraction, rest) := match rest with
    | '.' :: r => splitDigits r
    | r => ([], r)
  if whole = [] ∧ fraction = [] then none
  else do
    let e ← readExponent? rest
    let ds := whole ++ fraction
    some (nearest (ofDigits ds) ds.length (e - fraction.length))

/-- Read a number with an optional sign. -/
def read? : List Char → Option Float
  | '-' :: rest => (readUnsigned? rest).map (fun x => -x)
  | '+' :: rest => readUnsigned? rest
  | cs => readUnsigned? cs

end PipelineConfig.Decimal
