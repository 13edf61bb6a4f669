/-!
# Numbers of a width

Many whole numbers are kept in a fixed number of bits. Here is which of them fit, with a bit for
the sign or without.
-/

namespace PipelineConfig.Width

/-- Whether a number fits so many bits. -/
def holds (bits n : Nat) : Bool :=
  n < Nat.pow 2 bits

/-- Whether a number with a sign fits so many bits, one of which is for the sign. -/
def holdsSigned (bits : Nat) (n : Int) : Bool :=
  match n with
  | .ofNat n => holds (bits - 1) n
  | .negSucc n => holds (bits - 1) n

/-- Whether a number fits so many bits, one of which is for the sign only if it is negative. -/
def holdsEither (bits : Nat) (n : Int) : Bool :=
  match n with
  | .ofNat n => holds bits n
  | .negSucc n => holds (bits - 1) n

theorem holdsSigned_iff (bits : Nat) (n : Int) :
    holdsSigned bits n = true
      ↔ -Int.ofNat (Nat.pow 2 (bits - 1)) ≤ n ∧ n < Int.ofNat (Nat.pow 2 (bits - 1)) := by
  cases n with
  | ofNat n =>
    simp only [holdsSigned, holds, decide_eq_true_eq, Int.ofNat_eq_natCast]
    omega
  | negSucc n =>
    simp only [holdsSigned, holds, decide_eq_true_eq, Int.ofNat_eq_natCast]
    omega

end PipelineConfig.Width
