import Choreography.Decimal.Nearest
import Choreography.Text.Quoted
import Choreography.Text.Script

/-! Numerals: how texts write numbers. Digits may be grouped by single underscores, and
where a number is read from any text, the digits and blanks of all scripts will do. -/

namespace Choreography.Numeral

/-- The characters that Unicode calls white space. -/
def isSpace (c : Char) : Bool :=
  let n := c.toNat
  (9 ≤ n && n ≤ 13) || n == 0x20 || n == 0x85 || n == 0xA0 || n == 0x1680 ||
    (0x2000 ≤ n && n ≤ 0x200A) || n == 0x2028 || n == 0x2029 || n == 0x202F || n == 0x205F ||
    n == 0x3000

def trim (cs : List Char) : List Char :=
  ((cs.dropWhile isSpace).reverse.dropWhile isSpace).reverse

/-- The characters that words may have around them: white space and the separators of records. -/
def isBlank (c : Char) : Bool := isSpace c || (0x1C ≤ c.toNat && c.toNat ≤ 0x1F)

/-- Characters without the blanks around them. -/
def unpadded (cs : List Char) : List Char :=
  ((cs.dropWhile isBlank).reverse.dropWhile isBlank).reverse

/-- The characters without their underscores, which must stand alone and inside. -/
def joined? : List Char → Option (List Char)
  | [] => some []
  | ['_'] => none
  | '_' :: '_' :: _ => none
  | '_' :: c :: rest => (joined? rest).map (c :: ·)
  | c :: rest => (joined? rest).map (c :: ·)

/-- As `joined?`, where an underscore must not come first either. -/
def unspaced? (cs : List Char) : Option (List Char) :=
  if cs.head? = some '_' then none else joined? cs

/-- The sign before a number, and the characters after it. -/
def signed : List Char → Bool × List Char
  | '-' :: rest => (true, rest)
  | '+' :: rest => (false, rest)
  | rest => (false, rest)

def digitsValue (digits : List Char) : Nat :=
  digits.foldl (fun n c => n * 10 + (c.toNat - '0'.toNat)) 0

/-- Characters that are digits, at least one. -/
def digits? (cs : List Char) : Option Nat :=
  if cs.isEmpty || !cs.all Char.isDigit then none else some (digitsValue cs)

def hexDigit? (c : Char) : Option Nat :=
  if c.isDigit then some (c.toNat - '0'.toNat)
  else if 'a' ≤ c && c ≤ 'f' then some (c.toNat - 'a'.toNat + 10)
  else if 'A' ≤ c && c ≤ 'F' then some (c.toNat - 'A'.toNat + 10)
  else none

/-- The exponent of a number, 0 if there is none. -/
def exponent? : List Char → Option Int
  | [] => some 0
  | e :: rest =>
    if e = 'e' ∨ e = 'E' then
      let (negative, digits) := signed rest
      (digits? digits).map fun n => if negative then -(n : Int) else n
    else none

/-- A number in decimal digits, which may leave out the digits on one side of its
point, or one of the words for what is no finite number. -/
def plainFloat? (cs : List Char) : Option Double :=
  let (negative, body) := signed cs
  let word := String.ofList (body.map Char.toLower)
  if word = "inf" ∨ word = "infinity" then some (.infinite negative)
  else if word = "nan" then some (.nan 0)
  else
    let whole := body.takeWhile Char.isDigit
    let afterWhole := body.dropWhile Char.isDigit
    let (fraction, rest) := match afterWhole with
      | '.' :: rest => (rest.takeWhile Char.isDigit, rest.dropWhile Char.isDigit)
      | rest => ([], rest)
    if whole.isEmpty && fraction.isEmpty then none
    else
      (exponent? rest).map fun exponent =>
        .ofDecimal negative (digitsValue (whole ++ fraction)) (exponent - fraction.length)

/-- What a text that may be a whole number turns out to be. -/
inductive Reading where
  | number (n : Int)
  /-- It has too many digits. -/
  | tooLong (digits : Nat)
  | unreadable

/-- The most digits that a whole number may have in a text. -/
def mostDigits : Nat := 4300

/-- A text in ASCII: digits and blanks of any script in their plain form, and a question
mark for whatever has none. -/
def plain (text : String) : List Char :=
  (Text.letters text).map fun letter =>
    if letter < 128 then Char.ofNat letter
    else
      match Text.digit? letter with
      | some digit => Char.ofNat ('0'.toNat + digit)
      | none => if !Text.isHalf letter && isSpace (Char.ofNat letter) then ' ' else '?'

/-- Characters without the blanks of ASCII around them. -/
def bare (cs : List Char) : List Char :=
  let isBlank (c : Char) : Bool := c = ' ' || ('\t' ≤ c && c ≤ '\r')
  ((cs.dropWhile isBlank).reverse.dropWhile isBlank).reverse

/-- Reads a whole number, which may have a sign and blanks around it. -/
def whole (text : String) : Reading :=
  let (negative, body) := signed (bare (plain text))
  let run := body.takeWhile fun c => c.isDigit || c = '_'
  match unspaced? run with
  | none | some [] => .unreadable
  | some digits =>
    if mostDigits < digits.length then .tooLong digits.length
    else if run.length < body.length then .unreadable
    else
      let size : Int := digitsValue digits
      .number (if negative then -size else size)

/-- Whether every underscore stands between two digits. -/
def isGrouped : List Char → Bool
  | [] => true
  | '_' :: _ => false
  | c :: '_' :: rest => c.isDigit && rest.head?.any Char.isDigit && isGrouped rest
  | _ :: rest => isGrouped rest

/-- The number that a text writes, with or without a fraction and an exponent. -/
def double? (text : String) : Option Double :=
  let cs := bare (plain text)
  if isGrouped cs then plainFloat? (cs.filter (· != '_')) else none

def isNumber (text : String) : Bool := (double? text).isSome

/-- What is said of too many digits. -/
def tooManyDigits (digits : Nat) : String :=
  s!"Exceeds the limit ({mostDigits} digits) for integer string conversion: " ++
    s!"value has {digits} digits; use sys.set_int_max_str_digits() to increase the limit"

/-- What is said of a text that is no whole number. Only its beginning is shown. -/
def notWhole (text : String) : String :=
  "invalid literal for int() with base 10: " ++ Text.first 200 (Text.quoted text)

end Choreography.Numeral
