import Choreography.Decimal.Nearest

/-! The shortest decimal that reads back as a given binary64 number. Every number
stands for an interval of reals that round to it. The grids of one digit, two
digits and so on are tried in turn, and the first with a point in the interval
wins; of two points the nearer one. -/

namespace Choreography.Decimal

/-- A positive decimal: 0.d₁d₂…dₙ · 10 ^ `point`, without a zero at either end. -/
structure Digits where
  digits : List Nat
  point : Int

/-- The reals that round to a positive finite number, as numerators over a common
denominator. The ends belong to it when `closed`. -/
structure Interval where
  low : Nat
  value : Nat
  high : Nat
  denominator : Nat
  closed : Bool

/-- Half the gap to each neighbour. The gap below a power of two is half as wide. -/
def Interval.around (x : Double) : Interval :=
  let step := Nat.pow 2 x.scale
  let value := 4 * x.significand * step
  let narrow := x.significand == Nat.pow 2 52 && 0 < x.scale
  { low := value - (if narrow then step else 2 * step)
    value
    high := value + 2 * step
    denominator := 4 * Nat.pow 2 1074
    closed := x.significand % 2 == 0 }

def Interval.contains (i : Interval) (numerator denominator : Nat) : Bool :=
  let point := numerator * i.denominator
  let low := i.low * denominator
  let high := i.high * denominator
  if i.closed then low ≤ point && point ≤ high else low < point && point < high

/-- Ten to a power, as numerator and denominator. -/
def tenTo (exponent : Int) : Nat × Nat :=
  if 0 ≤ exponent then (Nat.pow 10 exponent.toNat, 1) else (1, Nat.pow 10 (-exponent).toNat)

/-- The least `p` with value < 10 ^ p, searched upwards from `guess`. -/
def pointFrom (numerator denominator : Nat) : Nat → Int → Int
  | 0, guess => guess
  | tries + 1, guess =>
    let (n, d) := tenTo guess
    if numerator * d < n * denominator then guess
    else pointFrom numerator denominator tries (guess + 1)

def pointOf (numerator denominator : Nat) : Int :=
  let bits : Int := (Nat.log2 numerator : Int) - Nat.log2 denominator
  pointFrom numerator denominator 6 (bits * 30103 / 100000 - 2)

/-- The decimal digits of a number, most significant first. -/
def digitsOf (n : Nat) : List Nat := (Nat.toDigits 10 n).map fun c => c.toNat - '0'.toNat

def trimZeros (digits : List Nat) : List Nat :=
  (digits.reverse.dropWhile (· == 0)).reverse

/-- The point of the grid of `count` digits that lies in the interval and is
nearest to its value, an exact tie going to the even last digit. -/
def gridPoint? (i : Interval) (point : Int) (count : Nat) : Option Nat :=
  let (n, d) := tenTo (point - count)
  let below := i.value * d / (i.denominator * n)
  let above := below + 1
  match i.contains (below * n) d, i.contains (above * n) d with
  | false, false => none
  | true, false => some below
  | false, true => some above
  | true, true =>
    let down := i.value * d - below * n * i.denominator
    let up := above * n * i.denominator - i.value * d
    if down < up || (down == up && below % 2 == 0) then some below else some above

/-- Tries the grids from `count` digits on. -/
def searchGrids (i : Interval) (point : Int) : Nat → Nat → Nat × Nat
  | 0, count => (i.value / i.denominator, count)
  | more + 1, count =>
    match gridPoint? i point count with
    | some found => (found, count)
    | none => searchGrids i point more (count + 1)

/-- The shortest digits of a positive finite number. -/
def shortest (x : Double) : Digits :=
  let i := Interval.around x
  let point := pointOf i.value i.denominator
  let (found, count) := searchGrids i point 17 1
  let digits := digitsOf found
  { digits := trimZeros digits, point := point - count + digits.length }

/-- How a number is laid out once its digits are known. -/
structure Layout where
  /-- The least exponent of ten that is written with a point only. -/
  leastPlain : Int
  /-- The first exponent of ten that is written with an exponent again. -/
  firstLarge : Int
  /-- The fewest digits of an exponent. -/
  exponentWidth : Nat
  nan : String
  infinity : String

def digitText (digits : List Nat) : String :=
  String.ofList (digits.map fun d => Char.ofNat (d + '0'.toNat))

/-- Positional notation, with at least one digit on each side of the point. -/
def plainText (d : Digits) : String :=
  let count : Int := d.digits.length
  if d.point ≤ 0 then
    "0." ++ digitText (List.replicate (-d.point).toNat 0 ++ d.digits)
  else if count ≤ d.point then
    digitText (d.digits ++ List.replicate (d.point - count).toNat 0) ++ ".0"
  else
    digitText (d.digits.take d.point.toNat) ++ "." ++ digitText (d.digits.drop d.point.toNat)

/-- Exponent notation, with a signed exponent and no point after a lone digit. -/
def exponentText (layout : Layout) (d : Digits) : String :=
  let mantissa := match d.digits with
    | [] => "0"
    | [one] => digitText [one]
    | first :: rest => digitText [first] ++ "." ++ digitText rest
  let exponent := d.point - 1
  let size := toString exponent.natAbs
  let padded := String.ofList (List.replicate (layout.exponentWidth - size.length) '0') ++ size
  mantissa ++ "e" ++ (if exponent < 0 then "-" else "+") ++ padded

/-- The text of any binary64 number. -/
def text (layout : Layout) (x : Double) : String :=
  if x.isNan then layout.nan
  else
    let sign := if x.isNegative then "-" else ""
    if x.isInfinite then sign ++ layout.infinity
    else if x.significand = 0 then sign ++ "0.0"
    else
      let d := shortest x
      let exponent := d.point - 1
      if layout.leastPlain ≤ exponent && exponent < layout.firstLarge then sign ++ plainText d
      else sign ++ exponentText layout d

end Choreography.Decimal
