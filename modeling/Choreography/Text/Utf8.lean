import Choreography.Text.Letter

/-! Reading UTF-8 that may be broken. Octets that begin a character and do not finish
it become one replacement character, and so does every octet that begins none. -/

namespace Choreography.Text.Utf8

/-- A character of which some octets are still owed: what is known of its code, and the
least and the greatest octet that may come next. -/
structure Pending where
  code : Nat
  owed : Nat
  low : Nat := 0x80
  high : Nat := 0xBF

/-- What the first octet of a character is the beginning of. -/
inductive Lead where
  | character (letter : Letter)
  | pending (p : Pending)
  | broken

def lead (octet : Nat) : Lead :=
  if octet ≤ 0x7F then .character octet
  else if 0xC2 ≤ octet ∧ octet ≤ 0xDF then .pending { code := octet - 0xC0, owed := 1 }
  else if octet = 0xE0 then .pending { code := 0, owed := 2, low := 0xA0 }
  else if octet = 0xED then .pending { code := 0xD, owed := 2, high := 0x9F }
  else if 0xE1 ≤ octet ∧ octet ≤ 0xEF then .pending { code := octet - 0xE0, owed := 2 }
  else if octet = 0xF0 then .pending { code := 0, owed := 3, low := 0x90 }
  else if octet = 0xF4 then .pending { code := 4, owed := 3, high := 0x8F }
  else if 0xF1 ≤ octet ∧ octet ≤ 0xF3 then .pending { code := octet - 0xF0, owed := 3 }
  else .broken

/-- What stands for octets that write nothing. -/
def replacement : Letter := 0xFFFD

/-- The letters of an octet between characters, and what it leaves pending. -/
def begin (octet : Nat) : List Letter × Option Pending :=
  match lead octet with
  | .character c => ([c], none)
  | .pending p => ([], some p)
  | .broken => ([replacement], none)

/-- The letters that an octet finishes, and what is pending after it. -/
def step : Option Pending → Nat → List Letter × Option Pending
  | none, octet => begin octet
  | some p, octet =>
    if p.low ≤ octet ∧ octet ≤ p.high then
      let code := p.code * 64 + octet % 64
      if p.owed ≤ 1 then ([code], none) else ([], some { code, owed := p.owed - 1 })
    else
      let (letters, pending) := begin octet
      (replacement :: letters, pending)

def decodeFrom : Option Pending → List UInt8 → List Letter
  | none, [] => []
  | some _, [] => [replacement]
  | pending, octet :: rest =>
    let (letters, pending) := step pending octet.toNat
    letters ++ decodeFrom pending rest

def decode (octets : List UInt8) : String := ofLetters (decodeFrom none octets)

/-- The octets of a letter. Those of a half are what they would be if it were one. -/
def encodeLetter (letter : Letter) : List UInt8 :=
  let next (shift : Nat) : UInt8 := UInt8.ofNat (0x80 + letter / shift % 64)
  if letter < 0x80 then [UInt8.ofNat letter]
  else if letter < 0x800 then [UInt8.ofNat (0xC0 + letter / 64), next 1]
  else if letter < 0x10000 then [UInt8.ofNat (0xE0 + letter / 4096), next 64, next 1]
  else [UInt8.ofNat (0xF0 + letter / 262144), next 4096, next 64, next 1]

def encode (text : String) : List UInt8 := (letters text).flatMap encodeLetter

/-- A text with a replacement in the place of every octet of a half. -/
def repaired (text : String) : String := if hasHalf text then decode (encode text) else text

end Choreography.Text.Utf8
