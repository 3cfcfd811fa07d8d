import Choreography.Decimal.Shortest

/-! Decimals with a chosen number of digits. A number is rounded once, from its exact
size, and an exact half goes to the even digit. -/

namespace Choreography.Decimal

/-- The size of a finite number as a quotient. -/
def sizeOf (x : Double) : Nat × Nat := (x.significand * Nat.pow 2 x.scale, Nat.pow 2 1074)

/-- Zeros, then the digits of a number, `width` in all unless the number has more. -/
def zeroPadded (width n : Nat) : String :=
  let digits := toString n
  String.ofList (List.replicate (width - digits.length) '0') ++ digits

/-- A point and what comes after it. Where nothing does, the point is left out too,
unless it is to be kept. -/
def pointed (keepsPoint : Bool) (fraction : String) : String :=
  if fraction.isEmpty && !keepsPoint then "" else "." ++ fraction

/-- The size of a number with `places` digits after the point. -/
def fixedText (x : Double) (places : Nat) (keepsPoint : Bool) : String :=
  let (numerator, denominator) := sizeOf x
  let digits := zeroPadded (places + 1)
    (Double.roundHalfEven (numerator * Nat.pow 10 places) denominator)
  let whole := digits.length - places
  (digits.take whole).toString ++ pointed keepsPoint (digits.drop whole).toString

/-- The size of a number as one digit before the point and `places` after it: all these
digits as one number, and the exponent of ten that belongs to the first. -/
def significant (x : Double) (places : Nat) : Nat × Int :=
  let (numerator, denominator) := sizeOf x
  if numerator = 0 then (0, 0)
  else
    let exponent := pointOf numerator denominator - 1
    let (up, down) := tenTo ((places : Int) - exponent)
    let digits := Double.roundHalfEven (numerator * up) (denominator * down)
    -- rounding up may make one digit more
    if digits = Nat.pow 10 (places + 1) then (Nat.pow 10 places, exponent + 1) else (digits, exponent)

/-- An exponent of ten with its sign and two digits at least. -/
def exponentMark (exponent : Int) : String :=
  "e" ++ (if exponent < 0 then "-" else "+") ++ zeroPadded 2 exponent.natAbs

/-- The size of a number in exponent notation, with `places` digits after the point. -/
def scientificText (x : Double) (places : Nat) (keepsPoint : Bool) : String :=
  let (number, exponent) := significant x places
  let digits := zeroPadded (places + 1) number
  (digits.take 1).toString ++ pointed keepsPoint (digits.drop 1).toString ++ exponentMark exponent

/-- A decimal without zeros at its end, and without a point that has nothing after it. -/
def trimmed (text : String) : String :=
  if text.contains '.' then
    let kept := text.toList.reverse.dropWhile (· == '0')
    String.ofList (match kept with
      | '.' :: rest => rest.reverse
      | _ => kept.reverse)
  else text

/-- The size of a number with `digits` digits in all, in whichever notation is short.
Zeros at the end are left out unless the point is to be kept. -/
def generalText (x : Double) (digits : Nat) (keepsPoint : Bool) : String :=
  let digits := max digits 1
  let (number, exponent) := significant x (digits - 1)
  let settle (text : String) : String := if keepsPoint then text else trimmed text
  if -4 ≤ exponent && exponent < digits then
    settle (fixedText x ((digits : Int) - 1 - exponent).toNat keepsPoint)
  else
    let shown := zeroPadded digits number
    settle ((shown.take 1).toString ++ pointed keepsPoint (shown.drop 1).toString) ++
      exponentMark exponent

end Choreography.Decimal
