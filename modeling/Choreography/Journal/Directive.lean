import Choreography.Decimal.Rounded
import Choreography.Error

/-! Directives in messages. A directive stands for a value and says how it is shown:
after a percent sign come flags, a width, a precision and a letter. -/

namespace Choreography

structure Directive where
  /-- Padding comes after the value. -/
  toTheLeft : Bool := false
  /-- A number that is not negative has a plus sign. -/
  plus : Bool := false
  /-- A number that is not negative has a blank in the place of a sign. -/
  blank : Bool := false
  /-- A number shows its radix, or keeps its point. -/
  alternate : Bool := false
  /-- A number is padded with zeros. -/
  zeros : Bool := false
  width : Nat := 0
  precision : Option Nat := none
  letter : Char

namespace Directive

/-- Sets the flag that a character stands for, if it stands for one. -/
def flagged? (d : Directive) : Char → Option Directive
  | '-' => some { d with toTheLeft := true }
  | '+' => some { d with plus := true }
  | ' ' => some { d with blank := true }
  | '#' => some { d with alternate := true }
  | '0' => some { d with zeros := true }
  | _ => none

/-- Whether what a directive shows is longer than any memory. -/
def isEndless (d : Directive) : Bool :=
  let isText := d.letter = 's' || d.letter = 'r' || d.letter = 'a' || d.letter = 'c'
  Nat.pow 2 32 < d.width || (!isText && d.precision.any (Nat.pow 2 24 < ·))

def repeated (n : Nat) (c : Char) : String := String.ofList (List.replicate n c)

/-- A text in the width of a directive. -/
def padText (d : Directive) (text : String) : String :=
  let padding := repeated (d.width - Text.size text) ' '
  if d.toTheLeft then text ++ padding else padding ++ text

/-- A number in the width of a directive: its sign, its radix and its digits. Zeros go
between the radix and the digits, blanks around them all. -/
def padNumber (d : Directive) (negative : Bool) (radix digits : String) : String :=
  let sign := if negative then "-" else if d.plus then "+" else if d.blank then " " else ""
  let whole := sign ++ radix ++ digits
  let missing := d.width - whole.length
  if d.toTheLeft then whole ++ repeated missing ' '
  else if d.zeros then sign ++ radix ++ repeated missing '0' ++ digits
  else repeated missing ' ' ++ whole

/-- The error when a directive wants another kind of value. -/
def unfit (d : Directive) (wanted : String) (v : Value) : Error :=
  .plain .type s!"%{d.letter} format: {wanted} is required, not {v.typeName}"

/-- The whole number that a value is. -/
def whole? : Value → Option Int
  | .int n => some n
  | .bool b => some (if b then 1 else 0)
  | _ => none

/-- The whole number in a value, without its fraction. -/
def wholePart (d : Directive) (v : Value) : Except Error Int :=
  match whole? v, v with
  | some n, _ => .ok n
  | none, .float x =>
    if x.isFinite then .ok (Int.tdiv x.units (Int.pow 2 1074))
    else if x.isNan then .error (.plain .value "cannot convert float NaN to integer")
    else .error (.plain .overflow "cannot convert float infinity to integer")
  | none, _ => .error (d.unfit "a real number" v)

/-- A whole number in some base, with as many digits as the precision wants. -/
def showWhole (d : Directive) (base : Nat) (n : Int) : String :=
  let digits := String.ofList (Nat.toDigits base n.natAbs)
  let digits := repeated ((d.precision.getD 0) - digits.length) '0' ++ digits
  let radix := if !d.alternate then "" else if base = 8 then "0o" else if base = 16 then "0x" else ""
  let upper (s : String) : String := if d.letter = 'X' then s.toUpper else s
  d.padNumber (n < 0) (upper radix) (upper digits)

/-- The binary number nearest to a value. -/
def toDouble : Value → Except Error Double
  | .float x => .ok x
  | v =>
    match whole? v with
    | some n =>
      let x := Double.ofInt n
      if x.isFinite then .ok x
      else .error (.plain .overflow "int too large to convert to float")
    | none => .error (.plain .type s!"must be real number, not {v.typeName}")

/-- A binary number as its letter says. -/
def showDouble (d : Directive) (x : Double) : String :=
  let precision := d.precision.getD 6
  let size :=
    if x.isNan then "nan"
    else if x.isInfinite then "inf"
    else
      match d.letter.toLower with
      | 'e' => Decimal.scientificText x precision d.alternate
      | 'f' => Decimal.fixedText x precision d.alternate
      | _ => Decimal.generalText x precision d.alternate
  let size := if d.letter.isUpper then size.toUpper else size
  d.padNumber (x.isNegative && !x.isNan) "" size

/-- The letter that a value is, or whose number it is. -/
def letterOf (v : Value) : Except Error String :=
  let wrong : Error := .plain .type "%c requires int or char"
  match v, whole? v with
  | .text s, _ =>
    if Text.size s = 1 then .ok s else .error wrong
  | _, some n =>
    if 0 ≤ n ∧ n < 0x110000 then .ok (Text.ofLetter n.toNat)
    else .error (.plain .overflow "%c arg not in range(0x110000)")
  | _, none => .error wrong

/-- A letter with its number in the place of it, unless it is ASCII. -/
def inAscii (letter : Text.Letter) : String :=
  if letter < 128 then Text.ofLetter letter else Text.numbered letter

/-- How a directive shows a value, if there are directives with its letter. -/
def show? (d : Directive) (v : Value) : Option (Except Error String) :=
  let cut (text : String) : String :=
    d.padText (match d.precision with
      | some most => Text.first most text
      | none => text)
  match d.letter with
  | 's' => some (.ok (cut v.plainText))
  | 'r' => some (.ok (cut v.exactText))
  | 'a' => some (.ok (cut (String.join ((Text.letters v.exactText).map inAscii))))
  | 'd' | 'i' | 'u' => some ((d.wholePart v).map (d.showWhole 10))
  | 'o' | 'x' | 'X' => some (match whole? v with
    | some n => .ok (d.showWhole (if d.letter = 'o' then 8 else 16) n)
    | none => .error (d.unfit "an integer" v))
  | 'e' | 'E' | 'f' | 'F' | 'g' | 'G' => some ((toDouble v).map d.showDouble)
  | 'c' => some ((letterOf v).map d.padText)
  | _ => none

end Directive

end Choreography
