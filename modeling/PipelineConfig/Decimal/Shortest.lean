/-!
# The shortest decimal of a binary fraction

A finite float is `m · 2 ^ q`. Every real number closer to it than to its neighbours reads back
as the same float, so its text need only be *some* decimal in that interval. `shortest` finds
the one with the fewest digits, and of those with equally few the nearest: for one digit, two
digits and so on it looks at the two points of that decimal grid next to the value, and the
first grid with a point in the interval wins. All of it is exact arithmetic on natural numbers.

The ends of the interval read back as the float itself exactly when `m` is even, because ties
are rounded to even. A value halfway between two equally short decimals leaves a choice, which
is the notation's and not the value's: `Halfway` names the two that are in use.
-/

namespace PipelineConfig.Decimal

/-- Decimal digits with a place: `digits · 10 ^ exponent`, the last digit not zero. -/
structure Digits where
  digits : Nat
  exponent : Int
  deriving DecidableEq, Repr

/-- The number of decimal digits of a number; zero has one. -/
def digitCount (n : Nat) : Nat :=
  (Nat.toDigits 10 n).length

/-- The exponent of the leading digit: the `k` with `10 ^ k ≤ num / den < 10 ^ (k + 1)`. -/
def leadingExponent (num den : Nat) : Int :=
  if den ≤ num then (digitCount (num / den) : Int) - 1
  else
    let l := digitCount (den / num)
    if den ≤ num * Nat.pow 10 (l - 1) then -((l - 1 : Nat) : Int) else -(l : Int)

/-- Drop trailing zeros of the digits, at most `fuel` of them. -/
def trimZeros : Nat → Nat → Int → Digits
  | 0, d, e => ⟨d, e⟩
  | fuel + 1, d, e => if d ≠ 0 ∧ d % 10 = 0 then trimZeros fuel (d / 10) (e + 1) else ⟨d, e⟩

/-- Where a value goes that is halfway between two neighbours on a grid. -/
inductive Halfway
  | up
  | toEven
  deriving DecidableEq, Repr

/-- Whether a value halfway above `below` goes to the point after it. -/
def Halfway.goesUp : Halfway → Nat → Bool
  | .up, _ => true
  | .toEven, below => below % 2 = 1

/-- An interval of fractions with one denominator, with a distinguished point inside it. -/
structure Interval where
  low : Nat
  point : Nat
  high : Nat
  den : Nat
  closed : Bool

namespace Interval

/-- The fractions that read back as `m · 2 ^ q`; a power of two has its lower neighbour only half
as far away, which `narrow` says. -/
def around (m : Nat) (q : Int) (narrow : Bool) : Interval :=
  let scale := if 2 ≤ q then Nat.pow 2 (q - 2).toNat else 1
  let den := if 2 ≤ q then 1 else Nat.pow 2 (2 - q).toNat
  { low := (4 * m - (if narrow then 1 else 2)) * scale
    point := 4 * m * scale
    high := (4 * m + 2) * scale
    den := den
    closed := m % 2 = 0 }

/-- The point of the grid `10 ^ e` that is in the interval and nearest to its point, if one is. -/
def onGrid? (i : Interval) (halfway : Halfway) (e : Int) : Option Nat :=
  let unit := if 0 ≤ e then Nat.pow 10 e.toNat * i.den else i.den
  let scale := if 0 ≤ e then 1 else Nat.pow 10 (-e).toNat
  let inside (d : Nat) : Bool :=
    if i.closed then i.low * scale ≤ d * unit && d * unit ≤ i.high * scale
    else i.low * scale < d * unit && d * unit < i.high * scale
  let below := i.point * scale / unit
  let excess := i.point * scale % unit
  if inside below then
    let above := unit < 2 * excess || (unit = 2 * excess && halfway.goesUp below)
    if inside (below + 1) && above then some (below + 1) else some below
  else if inside (below + 1) then some (below + 1)
  else none

end Interval

/-- The decimal with the fewest digits in the interval of a positive `m · 2 ^ q`. -/
def shortest (halfway : Halfway) (m : Nat) (q : Int) (narrow : Bool) : Digits :=
  let i := Interval.around m q narrow
  let k := leadingExponent i.point i.den
  let grids := (List.range 17).map (fun n : Nat => k - n)
  match grids.findSome? (fun e => (i.onGrid? halfway e).map (fun d => (d, e))) with
  | some (d, e) => trimZeros 18 d e
  | none => ⟨i.point / i.den, 0⟩

end PipelineConfig.Decimal
