import Choreography.Value

/-! The binary64 number nearest to an exact quotient. A quotient half way between
two neighbours goes to the one with the even significand, and one too large for
every finite number becomes infinite. -/

namespace Choreography

namespace Double

/-- `numerator / denominator` rounded to an integer, a half to the even neighbour. -/
def roundHalfEven (numerator denominator : Nat) : Nat :=
  let quotient := numerator / denominator
  let twice := 2 * (numerator % denominator)
  if denominator < twice || (twice == denominator && quotient % 2 == 1) then quotient + 1
  else quotient

/-- The number whose size is `significand` · 2 ^ `scale` smallest units, where the
significand has at most 53 bits, and all 53 of them when the scale is not 0. -/
def ofScaled (negative : Bool) (significand scale : Nat) : Double :=
  if significand < Nat.pow 2 52 then ofParts negative 0 significand
  else if 2046 ≤ scale then infinite negative
  else ofParts negative (scale + 1) (significand - Nat.pow 2 52)

/-- The number nearest to ± `numerator / denominator`. -/
def nearest (negative : Bool) (numerator denominator : Nat) : Double :=
  let units := numerator * Nat.pow 2 1074
  let scale := Nat.log2 (units / denominator) - 52
  let significand := roundHalfEven units (denominator * Nat.pow 2 scale)
  if significand = Nat.pow 2 53 then ofScaled negative (Nat.pow 2 52) (scale + 1)
  else ofScaled negative significand scale

/-- The number nearest to an integer. -/
def ofInt (n : Int) : Double := nearest (n < 0) n.natAbs 1

/-- The number nearest to ± `digits` · 10 ^ `exponent`. Numbers that are certain to be
too small or too large are settled without writing out the power of ten: the digits
are at least 2 ^ `bits`, and less than twice that. -/
def ofDecimal (negative : Bool) (digits : Nat) (exponent : Int) : Double :=
  let bits : Int := Nat.log2 digits
  if digits = 0 || exponent + (bits + 1) * 30103 / 100000 < -400 then ofParts negative 0 0
  else if 400 < exponent + bits * 30102 / 100000 then infinite negative
  else if 0 ≤ exponent then nearest negative (digits * Nat.pow 10 exponent.toNat) 1
  else nearest negative digits (Nat.pow 10 (-exponent).toNat)

/-- The sum of a finite number and an integer, rounded once. -/
def addInt (x : Double) (n : Int) : Double :=
  if x.isFinite then
    let sum := x.units + n * Int.pow 2 1074
    nearest (sum < 0) sum.natAbs (Nat.pow 2 1074)
  else x

end Double

end Choreography
