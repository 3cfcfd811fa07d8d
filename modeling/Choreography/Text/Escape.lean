import Choreography.Text.Numeral
import Choreography.Text.Utf8

/-! Escapes. An octet may be written as a percent sign with two hexadecimal digits, and
so may every character, by the octets that encode it. -/

namespace Choreography.Text

/-- The digit that an octet writes in ASCII, if it writes one. -/
def octetDigit? (octet : UInt8) : Option Nat :=
  if octet < 128 then Numeral.hexDigit? (Char.ofNat octet.toNat) else none

/-- Octets without escapes, which stand for the octets that they write. -/
def unescaped : List UInt8 → List UInt8
  | octet :: a :: b :: rest =>
    match if octet.toNat = '%'.toNat then (octetDigit? a, octetDigit? b) else (none, none) with
    | (some high, some low) => UInt8.ofNat (high * 16 + low) :: unescaped rest
    | _ => octet :: unescaped (a :: b :: rest)
  | octets => octets

def unescape (text : String) : String := Utf8.decode (unescaped (Utf8.encode text))

/-- The escape of an octet, in capital letters. -/
def escapedOctet (octet : UInt8) : String :=
  let digit (n : Nat) : Char := ("0123456789ABCDEF".toList)[n]?.getD '0'
  String.ofList ['%', digit (octet.toNat / 16), digit (octet.toNat % 16)]

/-- A text in which all characters are escaped that are not kept. -/
def escape (isKept : Char → Bool) (text : String) : String :=
  String.join (text.toList.map fun c =>
    if isKept c then c.toString else String.join ((Utf8.encode c.toString).map escapedOctet))

/-- Letters, digits and the four marks that never need an escape. -/
def isUnreserved (c : Char) : Bool := c.isAlphanum || ['-', '.', '_', '~'].contains c

/-- The names and values in a query, where a plus sign is a blank. What has no value has an
empty one. -/
def parameters (query : String) : List (String × String) :=
  let part (text : List Char) : String :=
    unescape (String.ofList (text.map fun c => if c = '+' then ' ' else c))
  ((query.splitOn "&").filter (· != "")).map fun parameter =>
    let cs := parameter.toList
    (part (cs.takeWhile (· != '=')), part ((cs.dropWhile (· != '=')).drop 1))

/-- A name or a value as a query writes it. -/
def parameterText (text : String) : String :=
  String.ofList ((escape (fun c => isUnreserved c || c = ' ') text).toList.map fun c =>
    if c = ' ' then '+' else c)

end Choreography.Text
