import PipelineConfig.Decimal.Shortest

/-!
# Writing floats

Two notations occur. `plainText` is the text a float has as a scalar of a configuration: its
shortest digits, positional at every size, without a fraction part when there is none. `jsonText`
is its text inside a JSON document: shortest digits as well, with `.0` on whole numbers and an exponent
for very large and very small ones. JSON has no text for infinities and for what is not a number,
and `null` stands for them.
-/

namespace PipelineConfig.Decimal

/-- What a float denotes. -/
inductive Shape
  | notANumber
  | infinite (negative : Bool)
  | zero (negative : Bool)
  | finite (negative : Bool) (digits : Digits)

/-- Take a float apart by the bits of its interchange format, and find its shortest digits. -/
def Shape.ofFloat (halfway : Halfway) (x : Float) : Shape :=
  let bits : Nat := x.toBits.toNat
  let negative : Bool := bits / Nat.pow 2 63 % 2 = 1
  let biased : Nat := bits / Nat.pow 2 52 % Nat.pow 2 11
  let fraction : Nat := bits % Nat.pow 2 52
  if biased = 2047 then
    if fraction = 0 then .infinite negative else .notANumber
  else if biased = 0 then
    if fraction = 0 then .zero negative
    else .finite negative (shortest halfway fraction (-1074) false)
  else
    .finite negative
      (shortest halfway (fraction + Nat.pow 2 52) ((biased : Int) - 1075)
        (fraction = 0 && 1 < biased))

private def zeros (n : Nat) : List Char :=
  List.replicate n '0'

/-- Digits in positional notation; `whole` is what follows a number without a fraction part. -/
def positional (d : Digits) (whole : List Char) : List Char :=
  let ds := Nat.toDigits 10 d.digits
  if 0 ≤ d.exponent then ds ++ zeros d.exponent.toNat ++ whole
  else
    let places := (-d.exponent).toNat
    if places < ds.length then
      ds.take (ds.length - places) ++ '.' :: ds.drop (ds.length - places)
    else '0' :: '.' :: zeros (places - ds.length) ++ ds

/-- Digits with one digit before the point and a signed exponent. -/
def scientific (d : Digits) : List Char :=
  let ds := Nat.toDigits 10 d.digits
  let e := d.exponent + (ds.length : Int) - 1
  let mark := if e < 0 then ['e', '-'] else ['e', '+']
  let fraction := match ds.drop 1 with
    | [] => []
    | rest => '.' :: rest
  ds.take 1 ++ fraction ++ mark ++ Nat.toDigits 10 e.natAbs

private def signed (negative : Bool) (cs : List Char) : List Char :=
  if negative then '-' :: cs else cs

/-- Scalar text of a float: shortest digits, halfway values upwards, never an exponent. -/
def plainText (x : Float) : String :=
  match Shape.ofFloat .up x with
  | .notANumber => "NaN"
  | .infinite negative => String.ofList (signed negative ['i', 'n', 'f'])
  | .zero negative => String.ofList (signed negative ['0'])
  | .finite negative d => String.ofList (signed negative (positional d []))

/-- The JSON text of a float: shortest digits, halfway values to the even one. Numbers from
`1e-5` up to below `1e16` are positional. -/
def jsonText (x : Float) : List Char :=
  match Shape.ofFloat .toEven x with
  | .notANumber | .infinite _ => ['n', 'u', 'l', 'l']
  | .zero negative => signed negative ['0', '.', '0']
  | .finite negative d =>
    let e := d.exponent + (digitCount d.digits : Int) - 1
    if -5 ≤ e ∧ e ≤ 15 then signed negative (positional d ['.', '0'])
    else signed negative (scientific d)

end PipelineConfig.Decimal
