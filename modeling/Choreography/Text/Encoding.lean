import Choreography.Text.Utf8

/-! Encodings of JSON. A text comes without a word about its encoding, but it begins
with two ASCII characters, and where the zeros are among its first octets tells how
wide its units are and in which order their octets come. -/

namespace Choreography.Text

/-- How octets write characters. -/
inductive Encoding where
  | utf8
  | utf16 (bigEndian : Bool)
  | utf32 (bigEndian : Bool)
deriving DecidableEq

namespace Encoding

/-- The encoding of a text that begins as JSON does. -/
def detect : List UInt8 → Encoding
  | [0, _] => .utf16 true
  | [_, 0] => .utf16 false
  | 0 :: 0 :: _ :: _ :: _ => .utf32 true
  | 0 :: _ :: _ :: _ :: _ => .utf16 true
  | _ :: 0 :: 0 :: 0 :: _ => .utf32 false
  | _ :: 0 :: _ :: _ :: _ => .utf16 false
  | _ => .utf8

/-- The number that some octets write together. -/
def unit (bigEndian : Bool) (octets : List UInt8) : Nat :=
  (if bigEndian then octets else octets.reverse).foldl (fun n octet => n * 256 + octet.toNat) 0

/-- The units of two octets, unless one octet is left over. -/
def units16? (bigEndian : Bool) : List UInt8 → Option (List Nat)
  | [] => some []
  | a :: b :: rest => (units16? bigEndian rest).map (unit bigEndian [a, b] :: ·)
  | _ => none

/-- The units of four octets, unless some octets are left over. -/
def units32? (bigEndian : Bool) : List UInt8 → Option (List Nat)
  | [] => some []
  | a :: b :: c :: d :: rest => (units32? bigEndian rest).map (unit bigEndian [a, b, c, d] :: ·)
  | _ => none

/-- The letters of units of two octets. A half without its other half stays one. -/
def pairUp : List Nat → List Letter
  | [] => []
  | [code] => [code]
  | high :: low :: rest =>
    if isHighHalf high && isLowHalf low then joined high low :: pairUp rest
    else high :: pairUp (low :: rest)

/-- Units of four octets as letters, if all are. -/
def wide? (codes : List Nat) : Option (List Letter) :=
  if codes.all (· < 0x110000) then some codes else none

/-- The text that octets write, if they are whole. -/
def decode? (octets : List UInt8) : Encoding → Option String
  | .utf8 => some (Utf8.decode octets)
  | .utf16 bigEndian => (units16? bigEndian octets).map fun units => ofLetters (pairUp units)
  | .utf32 bigEndian => ((units32? bigEndian octets).bind wide?).map ofLetters

end Encoding

end Choreography.Text
