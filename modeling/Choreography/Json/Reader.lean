import Choreography.Text.Numeral

/-! Reading JSON. Besides the standard forms the three words for a nan and the
two infinities are numbers here, a number with a fraction or an exponent is a
binary64, and of two members with one name the later value counts. A text that
is no JSON is refused with the place where reading stopped, and so is one with a
whole number too long or with lists and maps too deep. -/

namespace Choreography.Json

/-- What is wrong where a text stops being JSON. -/
inductive Objection where
  | value
  | memberName
  | colon
  | comma
  | closingQuote
  | controlCharacter
  | escape
  | codePoint
  /-- Something follows the value. -/
  | surplus
  /-- A whole number has too many digits. -/
  | length
  /-- Lists and maps hold each other too deeply: the first that is too deep is a list. -/
  | listDepth
  /-- As before, but the first that is too deep is a map. -/
  | mapDepth
deriving DecidableEq

def Objection.message : Objection → String
  | .value => "Expecting value"
  | .memberName => "Expecting property name enclosed in double quotes"
  | .colon => "Expecting ':' delimiter"
  | .comma => "Expecting ',' delimiter"
  | .closingQuote => "Unterminated string starting at"
  | .controlCharacter => "Invalid control character at"
  | .escape => "Invalid \\escape"
  | .codePoint => "Invalid \\uXXXX escape"
  | .surplus => "Extra data"
  | .length => "Exceeds the limit (4300 digits) for integer string conversion"
  | .listDepth => tooDeep "array"
  | .mapDepth => tooDeep "object"
where
  tooDeep (container : String) : String :=
    s!"maximum recursion depth exceeded while decoding a JSON {container} from a unicode string"

/-- Whether a text is refused for its depth alone. -/
def Objection.isDepth (o : Objection) : Bool := o = .listDepth || o = .mapDepth

/-- The most digits of a whole number. -/
def longestInt : Nat := 4300

/-- How many lists and maps may hold each other, unless something else is said. -/
def deepestNesting : Nat := 940

/-- Why a text is no JSON, and how many of its characters are left there. -/
structure Stop where
  objection : Objection
  remaining : Nat

/-- What was read, and the characters after it. -/
abbrev Reading (α : Type) := Except Stop (α × List Char)

def stopAt {α : Type} (objection : Objection) (rest : List Char) : Except Stop α :=
  .error ⟨objection, rest.length⟩

def isBlank (c : Char) : Bool := c = ' ' || c = '\t' || c = '\n' || c = '\r'

def skipBlanks (cs : List Char) : List Char := cs.dropWhile isBlank

/-- The number that four hexadecimal digits write. -/
def hexCode? (digits : List Char) : Option Nat :=
  digits.foldl (fun acc c => do return (← acc) * 16 + (← Numeral.hexDigit? c)) (some 0)

/-- The character that a backslash and a letter stand for. -/
def escaped? : Char → Option Char
  | '"' => some '"'
  | '\\' => some '\\'
  | '/' => some '/'
  | 'b' => some '\x08'
  | 'f' => some '\x0c'
  | 'n' => some '\n'
  | 'r' => some '\r'
  | 't' => some '\t'
  | _ => none

/-- Puts a letter before what was read, the latest first. -/
def push (letter : Text.Letter) (read : List Char) : List Char :=
  (Text.written letter).reverse ++ read

/-- The rest of a text whose opening quote stands at `start`. -/
def readText (start : Stop) (cs read : List Char) : Reading String :=
  match cs with
  | [] => .error start
  | '"' :: rest => .ok (String.ofList read.reverse, rest)
  | ['\\'] => .error start
  | '\\' :: 'u' :: a :: b :: c :: d :: '\\' :: 'u' :: p :: q :: r :: s :: t :: rest =>
    match hexCode? [a, b, c, d], hexCode? [p, q, r, s] with
    | none, _ => stopAt .codePoint ('u' :: a :: b :: c :: d :: '\\' :: 'u' :: p :: q :: r :: s :: t :: rest)
    | some high, low =>
      if Text.isHighHalf high then
        match low with
        | none => stopAt .codePoint ('u' :: p :: q :: r :: s :: t :: rest)
        | some low =>
          if Text.isLowHalf low then
            readText start (t :: rest) (push (Text.joined high low) read)
          else
            readText start ('\\' :: 'u' :: p :: q :: r :: s :: t :: rest) (push high read)
      else readText start ('\\' :: 'u' :: p :: q :: r :: s :: t :: rest) (push high read)
  | '\\' :: 'u' :: a :: b :: c :: d :: e :: rest =>
    match hexCode? [a, b, c, d] with
    | none => stopAt .codePoint ('u' :: a :: b :: c :: d :: e :: rest)
    | some code => readText start (e :: rest) (push code read)
  | '\\' :: 'u' :: rest => stopAt .codePoint ('u' :: rest)
  | '\\' :: c :: rest =>
    match escaped? c with
    | some plain => readText start rest (plain :: read)
    | none => stopAt .escape ('\\' :: c :: rest)
  | c :: rest =>
    if c.toNat < 32 then stopAt .controlCharacter (c :: rest) else readText start rest (c :: read)
termination_by cs.length

def digitsValue (digits : List Char) : Nat :=
  digits.foldl (fun acc c => acc * 10 + (c.toNat - '0'.toNat)) 0

/-- The digits after a point, if the point is followed by one. -/
def readFraction : List Char → List Char × List Char
  | '.' :: d :: rest =>
    if d.isDigit then ((d :: rest).takeWhile Char.isDigit, (d :: rest).dropWhile Char.isDigit)
    else ([], '.' :: d :: rest)
  | rest => ([], rest)

/-- The exponent, if it has a digit. -/
def readExponent (cs : List Char) : Option Int × List Char :=
  match cs with
  | e :: rest =>
    if e = 'e' || e = 'E' then
      let (negative, unsigned) := match rest with
        | '+' :: after => (false, after)
        | '-' :: after => (true, after)
        | _ => (false, rest)
      match unsigned.takeWhile Char.isDigit with
      | [] => (none, cs)
      | digits =>
        let size : Int := digitsValue digits
        (some (if negative then -size else size), unsigned.dropWhile Char.isDigit)
    else (none, cs)
  | [] => (none, cs)

/-- A number that starts with a digit, without its sign. -/
def readUnsigned (negative : Bool) (cs : List Char) : Reading Value :=
  let (whole, rest) := match cs with
    | '0' :: after => (['0'], after)
    | _ => (cs.takeWhile Char.isDigit, cs.dropWhile Char.isDigit)
  let (fraction, rest) := readFraction rest
  let (exponent, rest) := readExponent rest
  if fraction.isEmpty && exponent.isNone then
    if longestInt < whole.length then stopAt .length rest
    else
      let size : Int := digitsValue whole
      .ok (.int (if negative then -size else size), rest)
  else
    let shift := exponent.getD 0 - fraction.length
    .ok (.float (.ofDecimal negative (digitsValue (whole ++ fraction)) shift), rest)

/-- A word or a number, for what starts no text, list or map. -/
def readScalar (cs : List Char) : Reading Value :=
  match cs with
  | 'n' :: 'u' :: 'l' :: 'l' :: rest => .ok (.null, rest)
  | 't' :: 'r' :: 'u' :: 'e' :: rest => .ok (.bool true, rest)
  | 'f' :: 'a' :: 'l' :: 's' :: 'e' :: rest => .ok (.bool false, rest)
  | 'N' :: 'a' :: 'N' :: rest => .ok (.float (.nan 0), rest)
  | 'I' :: 'n' :: 'f' :: 'i' :: 'n' :: 'i' :: 't' :: 'y' :: rest =>
    .ok (.float (.infinite false), rest)
  | '-' :: 'I' :: 'n' :: 'f' :: 'i' :: 'n' :: 'i' :: 't' :: 'y' :: rest =>
    .ok (.float (.infinite true), rest)
  | '-' :: d :: rest =>
    if d.isDigit then readUnsigned true (d :: rest) else stopAt .value cs
  | d :: rest => if d.isDigit then readUnsigned false (d :: rest) else stopAt .value cs
  | [] => stopAt .value cs

mutual

/-- One value, which may hold `levels` lists and maps in each other. Each list or map,
and each thing in it, costs one unit of `fuel`. -/
def readValue (fuel levels : Nat) (cs : List Char) : Except Stop (Value × List Char) :=
  match fuel with
  | 0 => stopAt .listDepth cs
  | fuel + 1 =>
    match cs, levels with
    | '"' :: rest, _ => do
      let (s, rest) ← readText ⟨.closingQuote, cs.length⟩ rest []
      return (.text s, rest)
    | '[' :: _, 0 => stopAt .listDepth cs
    | '\x7b' :: _, 0 => stopAt .mapDepth cs
    | '[' :: rest, levels + 1 =>
      match skipBlanks rest with
      | ']' :: after => .ok (.list [], after)
      | inner => readItems fuel levels inner []
    | '\x7b' :: rest, levels + 1 =>
      match skipBlanks rest with
      | '\x7d' :: after => .ok (.map [], after)
      | inner => readMembers fuel levels inner []
    | _, _ => readScalar cs

/-- Items up to the closing bracket. -/
def readItems (fuel levels : Nat) (cs : List Char) (read : List Value) :
    Except Stop (Value × List Char) :=
  match fuel with
  | 0 => stopAt .listDepth cs
  | fuel + 1 => do
    let (item, rest) ← readValue fuel levels cs
    match skipBlanks rest with
    | ']' :: after => return (.list (item :: read).reverse, after)
    | ',' :: after => readItems fuel levels (skipBlanks after) (item :: read)
    | other => stopAt .comma other

/-- Members up to the closing brace. -/
def readMembers (fuel levels : Nat) (cs : List Char) (read : Fields) :
    Except Stop (Value × List Char) :=
  match fuel with
  | 0 => stopAt .listDepth cs
  | fuel + 1 =>
    match cs with
    | '"' :: rest => do
      let (name, rest) ← readText ⟨.closingQuote, cs.length⟩ rest []
      match skipBlanks rest with
      | ':' :: after =>
        let (value, rest) ← readValue fuel levels (skipBlanks after)
        let read := Fields.set read name value
        match skipBlanks rest with
        | '\x7d' :: after => return (.map read, after)
        | ',' :: after => readMembers fuel levels (skipBlanks after) read
        | other => stopAt .comma other
      | other => stopAt .colon other
    | _ => stopAt .memberName cs

end

/-- A text that is not read: why, and after how many letters. -/
structure Refusal where
  objection : Objection
  offset : Nat

/-- The value that a whole text writes, whose lists and maps hold each other only so deep. -/
def parseWithin (levels : Nat) (text : String) : Except Refusal Value :=
  let cs := text.toList
  let result : Except Stop Value := do
    let (value, rest) ← readValue (2 * cs.length + 2) levels (skipBlanks cs)
    match skipBlanks rest with
    | [] => return value
    | extra => stopAt .surplus extra
  result.mapError fun stop =>
    ⟨stop.objection, (Text.lettersOf (cs.take (cs.length - stop.remaining))).length⟩

/-- The value that a whole text writes. -/
def parse (text : String) : Except Refusal Value := parseWithin deepestNesting text

end Choreography.Json
