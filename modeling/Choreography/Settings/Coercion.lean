import Choreography.Text.Numeral

/-! Reading numbers, flags and texts out of values that may write them in another
way: a number may come as a text, a flag as a word. What cannot be read has a flaw,
which says whether the type was wrong or the writing. -/

namespace Choreography

inductive Flaw where
  | notWhole
  | unreadableInt
  | intTooLarge
  | fraction
  | notFinite
  | notANumber
  | unreadableFloat
  | notAFlag
  | unreadableFlag
  | notAText
  /-- A text has a letter that no encoding has. -/
  | unencodable
  | notAList
  /-- Nothing of that name is wanted. -/
  | unwanted
deriving DecidableEq

def Flaw.name : Flaw → String
  | .notWhole => "int_type"
  | .unreadableInt => "int_parsing"
  | .intTooLarge => "int_parsing_size"
  | .fraction => "int_from_float"
  | .notFinite => "finite_number"
  | .notANumber => "float_type"
  | .unreadableFloat => "float_parsing"
  | .notAFlag => "bool_type"
  | .unreadableFlag => "bool_parsing"
  | .notAText => "string_type"
  | .unencodable => "string_unicode"
  | .notAList => "list_type"
  | .unwanted => "extra_forbidden"

namespace Coercion

open Numeral

/-- A whole number in its plain form: a minus sign if it is negative, and digits of
which the first is no needless zero. -/
def plainInt (cs : List Char) : Reading :=
  let (negative, body) := match cs with
    | '-' :: rest => (true, rest)
    | _ => (false, cs)
  let digits := body.takeWhile Char.isDigit
  match digits with
  | [] => .unreadable
  | '0' :: _ => if body = ['0'] then .number 0 else .unreadable
  | _ =>
    if mostDigits < digits.length then .tooLong digits.length
    else if digits.length < body.length then .unreadable
    else
      let size : Int := digitsValue digits
      .number (if negative then -size else size)

/-- What follows the zeros and underscores after a zero at the beginning. Where nothing
does, the last of them is left; before a point, the one right before it. -/
def afterZeros (last : Char) : List Char → Option (List Char)
  | [] => some [last]
  | c :: rest =>
    if c = '0' || c = '_' then afterZeros c rest
    else if c = '.' then some (last :: c :: rest)
    else if c.isDigit || c = '-' then some (c :: rest)
    else none

/-- The characters without needless zeros at the beginning. -/
def dropZeros : List Char → Option (List Char)
  | [] => none
  | c :: rest =>
    if c = '0' then afterZeros c rest
    else if c.isDigit || c = '-' then some (c :: rest)
    else none

/-- The characters without a fraction that is made of zeros. -/
def dropFraction (cs : List Char) : List Char :=
  match cs.dropWhile (· != '.') with
  | '.' :: zero :: rest => if (zero :: rest).all (· == '0') then cs.takeWhile (· != '.') else cs
  | _ => cs

/-- A number without needless zeros at its beginning and after its point, and without
underscores between its digits. -/
def tidied (cs : List Char) : Option (List Char) :=
  (dropZeros cs).map fun rest =>
    let whole := dropFraction rest
    (unspaced? whole).getD whole

/-- A whole number that is not in its plain form, put into it: there may be blanks around
it, a plus sign, which no minus sign may follow, and what makes it untidy. -/
def plainForm? (cs : List Char) : Option (List Char) :=
  match trim cs with
  | '-' :: rest => (tidied rest).map ('-' :: ·)
  | '+' :: '-' :: _ => none
  | '+' :: rest => tidied rest
  | rest => tidied rest

/-- A whole number in text. -/
def intOfText (text : String) : Reading :=
  match plainInt text.toList with
  | .unreadable =>
    match (plainForm? text.toList).map plainInt with
    | some (.number n) => .number n
    | _ => .unreadable
  | found => found

def floatOfText? (text : String) : Option Double :=
  (plainFloat? (trim text.toList)).orElse fun _ => (unspaced? text.toList).bind plainFloat?

/-- The integer that a number is, unless it has a fraction or is too large. -/
def wholeOf (x : Double) : Except Flaw Int :=
  if !x.isFinite then .error .notFinite
  else if x.units % Int.pow 2 1074 ≠ 0 then .error .fraction
  else
    let n := x.units / Int.pow 2 1074
    if n.natAbs < Nat.pow 2 63 then .ok n else .error .intTooLarge

/-- Reads what a text writes, all of whose letters must be characters. -/
def written (text : String) (read : String → Except Flaw α) : Except Flaw α :=
  if Text.hasHalf text then .error .unencodable else read text

def int : Value → Except Flaw Int
  | .int n => .ok n
  | .bool b => .ok (if b then 1 else 0)
  | .float x => wholeOf x
  | .text s => written s fun s =>
    match intOfText s with
    | .number n => .ok n
    | .tooLong _ => .error .intTooLarge
    | .unreadable => .error .unreadableInt
  | _ => .error .notWhole

def float : Value → Except Flaw Double
  | .float x => .ok x
  | .int n => if (Double.ofInt n).isFinite then .ok (.ofInt n) else .error .notANumber
  | .bool b => .ok (.ofInt (if b then 1 else 0))
  | .text s => written s fun s =>
    match floatOfText? s with
    | some x => .ok x
    | none => .error .unreadableFloat
  | _ => .error .notANumber

/-- The words for yes and for no, in small letters. -/
def yes : List String := ["1", "on", "t", "true", "y", "yes"]

def no : List String := ["0", "off", "f", "false", "n", "no"]

def flagOfInt (n : Int) : Except Flaw Bool :=
  if n = 1 then .ok true else if n = 0 then .ok false else .error .unreadableFlag

def flag : Value → Except Flaw Bool
  | .bool b => .ok b
  | .int n => if -(Int.pow 2 63) ≤ n ∧ n < Int.pow 2 63 then flagOfInt n else .error .notAFlag
  | .float x =>
    match wholeOf x with
    | .ok n => flagOfInt n
    | .error _ => .error .notAFlag
  | .text s => written s fun s =>
    let word := String.ofList (s.toList.map Char.toLower)
    if word ∈ yes then .ok true else if word ∈ no then .ok false else .error .unreadableFlag
  | _ => .error .notAFlag

def text : Value → Except Flaw String
  | .text s => .ok s
  | _ => .error .notAText

/-- A text, or nothing. -/
def optionalText : Value → Except Flaw (Option String)
  | .null => .ok none
  | v => (text v).map some

end Coercion

end Choreography
