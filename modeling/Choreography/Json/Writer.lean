import Choreography.Value.Text

/-! Writing a value as one line of JSON, with or without a blank after every comma
and colon. Only the quote, the backslash and control characters are escaped, and the
numbers that JSON lacks are written as words. -/

namespace Choreography.Json

/-- Numbers as in messages, but with words of their own for what is not finite. -/
def numberLayout : Decimal.Layout :=
  { Value.numberLayout with nan := "NaN", infinity := "Infinity" }

def escapedChar : Char → String
  | '"' => "\\\""
  | '\\' => "\\\\"
  | '\n' => "\\n"
  | '\r' => "\\r"
  | '\t' => "\\t"
  | '\x08' => "\\b"
  | '\x0c' => "\\f"
  | c => if c.toNat < 32 then "\\u" ++ Text.hex 4 c.toNat else c.toString

def writeText (s : String) : String := "\"" ++ String.join (s.toList.map escapedChar) ++ "\""

/-- What stands between the parts of a list or a map. -/
structure Layout where
  comma : String
  colon : String

/-- With a blank after every comma and colon. -/
def spaced : Layout := ⟨", ", ": "⟩

def compact : Layout := ⟨",", ":"⟩

mutual

def writeIn (layout : Layout) : Value → String
  | .null => "null"
  | .bool true => "true"
  | .bool false => "false"
  | .int n => toString n
  | .float x => Decimal.text numberLayout x
  | .text s => writeText s
  | .list items => "[" ++ layout.comma.intercalate (writeEach layout items) ++ "]"
  | .map fields => "\x7b" ++ layout.comma.intercalate (writeMembers layout fields) ++ "\x7d"
termination_by structural v => v

def writeEach (layout : Layout) : List Value → List String
  | [] => []
  | v :: vs => writeIn layout v :: writeEach layout vs
termination_by structural vs => vs

def writeMembers (layout : Layout) : List (String × Value) → List String
  | [] => []
  | (name, v) :: fs =>
    (writeText name ++ layout.colon ++ writeIn layout v) :: writeMembers layout fs
termination_by structural fs => fs

end

def write (v : Value) : String := writeIn spaced v

/-- JSON in plain characters: the halves of pairs that stand alone are escaped as well,
as no encoding has them. -/
def writeEncodable (v : Value) : String :=
  String.join ((Text.letters (write v)).map fun letter =>
    if Text.isHalf letter then "\\u" ++ Text.hex 4 letter else (Char.ofNat letter).toString)

end Choreography.Json
